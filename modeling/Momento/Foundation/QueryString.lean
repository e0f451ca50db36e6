/-
  Momento.Foundation.QueryString

  **QUERY STRINGS AS BYTES.**  A form is a list of fields in the order of their
  keys, the values of one key in the order they were written; that order is a field
  of the value, so two forms with the same fields are the same form.

      escape, unescape   — one key or value, byte for byte
      parse, encode      — a whole form
      parseText, encodeText — a form of texts, the keys in any order

  What was escaped holds no separator and is read back (`unescape_escape`), so a form
  that was encoded is read back as it was (`parse_encode`), and two forms that are
  encoded alike are equal.  A form of texts is read back with its keys in some order
  (`parseText_encodeText`), and encoded alike in every order (`encodeText_perm`).
-/
import Mathlib.Data.List.Dedup
import Mathlib.Data.List.Lex
import Mathlib.Data.List.Sort
import Mathlib.Order.Fin.Basic

namespace Foundation.QueryString

/-- A byte. -/
abbrev Byte := Fin 256

/-- The one instance byte literals are read by. -/
instance neZeroByte : @NeZero Nat Zero.ofOfNat0 256 := ⟨Nat.succ_ne_zero 255⟩

/-- A Go string. -/
abbrev Bytes := List Byte

/-- The bytes of a text. -/
def ofText (text : String) : Bytes :=
  text.toList.flatMap fun c => (String.utf8EncodeChar c).map UInt8.toFin

/-- What is in a joined text is in the separator or in a piece. -/
theorem mem_of_mem_intercalate {sep : Bytes} {pieces : List Bytes} {c : Byte} (h : c ∈ sep.intercalate pieces) :
    c ∈ sep ∨ ∃ piece ∈ pieces, c ∈ piece := by
  induction pieces with
  | nil => simp at h
  | cons piece rest ih =>
    by_cases hrest : rest = []
    · subst hrest
      right
      exact ⟨piece, by simp, by simpa using h⟩
    · rw [List.intercalate_cons_of_ne_nil hrest] at h
      rcases List.mem_append.mp h with h | h
      · rcases List.mem_append.mp h with h | h
        · exact .inr ⟨piece, by simp, h⟩
        · exact .inl h
      · rcases ih h with h | ⟨other, hother, hc⟩
        · exact .inl h
        · exact .inr ⟨other, List.mem_cons_of_mem _ hother, hc⟩

/-! ## §1. One key or value. -/

/-- A letter, a digit, or one of `-`, `_`, `.` and `~`. -/
def isUnreserved (b : Byte) : Bool :=
  (48 ≤ b && b ≤ 57) || (65 ≤ b && b ≤ 90) || (97 ≤ b && b ≤ 122) || b = 45 || b = 95 || b = 46 || b = 126

/-- `upperhex`. -/
def upperhex (n : Fin 16) : Byte := if n.val < 10 then Fin.ofNat 256 (48 + n.val) else Fin.ofNat 256 (55 + n.val)

/-- `unhex`, where it is a digit. -/
def unhex (b : Byte) : Option (Fin 16) :=
  if 48 ≤ b ∧ b ≤ 57 then some (Fin.ofNat 16 (b.val - 48))
  else if 65 ≤ b ∧ b ≤ 70 then some (Fin.ofNat 16 (b.val - 55))
  else if 97 ≤ b ∧ b ≤ 102 then some (Fin.ofNat 16 (b.val - 87))
  else none

/-- The upper four bits. -/
def highNibble (b : Byte) : Fin 16 := Fin.ofNat 16 (b.val / 16)

/-- The lower four bits. -/
def lowNibble (b : Byte) : Fin 16 := Fin.ofNat 16 (b.val % 16)

/-- A byte from its halves. -/
def ofNibbles (high low : Fin 16) : Byte := Fin.ofNat 256 (16 * high.val + low.val)

/-- A space is a plus sign, and what is not unreserved three bytes. -/
def escapeByte (b : Byte) : Bytes :=
  if isUnreserved b then [b]
  else if b = 32 then [43]
  else [37, upperhex (highNibble b), upperhex (lowNibble b)]

/-- `QueryEscape`. -/
def escape (s : Bytes) : Bytes := s.flatMap escapeByte

/-- What a byte that starts no escape stands for. -/
def plain (b : Byte) : Byte := if b = 43 then 32 else b

/-- `none` for a percent sign without two digits after it. -/
def unescape : Bytes → Option Bytes
  | [] => some []
  | [b] => if b = 37 then none else some [plain b]
  | [b, c] => if b = 37 ∨ c = 37 then none else some [plain b, plain c]
  | b :: high :: low :: rest =>
    if b = 37 then
      match unhex high, unhex low with
      | some h, some l => (unescape rest).map (ofNibbles h l :: ·)
      | _, _ => none
    else (unescape (high :: low :: rest)).map (plain b :: ·)

theorem unhex_upperhex (n : Fin 16) : unhex (upperhex n) = some n := by
  revert n
  decide

theorem ofNibbles_highNibble_lowNibble (b : Byte) : ofNibbles (highNibble b) (lowNibble b) = b := by
  apply Fin.ext
  have hb : b.val < 256 := b.isLt
  simp only [ofNibbles, highNibble, lowNibble, Fin.ofNat]
  omega

theorem plain_of_isUnreserved {b : Byte} (h : isUnreserved b) : plain b = b ∧ b ≠ 37 := by
  have hplus : b ≠ 43 := by rintro rfl; exact absurd h (by decide)
  refine ⟨if_neg hplus, ?_⟩
  rintro rfl
  exact absurd h (by decide)

/-- A byte that starts no escape is read by itself. -/
theorem unescape_cons {b : Byte} (h : b ≠ 37) (rest : Bytes) :
    unescape (b :: rest) = (unescape rest).map (plain b :: ·) := by
  match rest with
  | [] => simp [unescape, h]
  | [c] =>
    by_cases hc : c = 37
    · simp [unescape, hc]
    · simp [unescape, h, hc]
  | c :: d :: rest => rw [unescape, if_neg h]

theorem unescape_escapeByte (b : Byte) (rest : Bytes) :
    unescape (escapeByte b ++ rest) = (unescape rest).map (b :: ·) := by
  unfold escapeByte
  by_cases hb : isUnreserved b
  · obtain ⟨hplain, hpercent⟩ := plain_of_isUnreserved hb
    rw [if_pos hb, List.singleton_append, unescape_cons hpercent, hplain]
  · rw [if_neg hb]
    by_cases hspace : b = 32
    · rw [if_pos hspace, List.singleton_append, unescape_cons (by decide), hspace]
      rfl
    · -- the three bytes of an escape are read together
      rw [if_neg hspace]
      show unescape (37 :: upperhex _ :: upperhex _ :: rest) = _
      rw [unescape, if_pos rfl, unhex_upperhex, unhex_upperhex]
      simp only [ofNibbles_highNibble_lowNibble]

/-- **What was escaped is read back.** -/
theorem unescape_escape (s : Bytes) : unescape (escape s) = some s := by
  induction s with
  | nil => rfl
  | cons b rest ih =>
    show unescape (escapeByte b ++ escape rest) = _
    rw [unescape_escapeByte, ih]
    rfl

theorem upperhex_ne (n : Fin 16) : upperhex n ≠ 38 ∧ upperhex n ≠ 61 ∧ upperhex n ≠ 59 := by
  revert n
  decide

theorem ne_of_isUnreserved {b : Byte} (h : isUnreserved b) : b ≠ 38 ∧ b ≠ 61 ∧ b ≠ 59 := by
  refine ⟨?_, ?_, ?_⟩
  · rintro rfl
    exact absurd h (by decide)
  · rintro rfl
    exact absurd h (by decide)
  · rintro rfl
    exact absurd h (by decide)

/-- What an escaped byte is made of. -/
theorem forall_escapeByte {P : Byte → Prop} (hunreserved : ∀ b, isUnreserved b → P b) (hplus : P 43)
    (hpercent : P 37) (hhex : ∀ n, P (upperhex n)) (b : Byte) : ∀ c ∈ escapeByte b, P c := by
  intro c hc
  unfold escapeByte at hc
  split at hc
  next hb =>
    obtain rfl := List.mem_singleton.mp hc
    exact hunreserved c hb
  next =>
    split at hc
    · obtain rfl := List.mem_singleton.mp hc
      exact hplus
    · simp only [List.mem_cons, List.not_mem_nil, or_false] at hc
      rcases hc with rfl | rfl | rfl
      · exact hpercent
      · exact hhex _
      · exact hhex _

theorem mem_escapeByte (b : Byte) : ∀ c ∈ escapeByte b, c ≠ 38 ∧ c ≠ 61 ∧ c ≠ 59 :=
  forall_escapeByte (fun _ => ne_of_isUnreserved) (by decide) (by decide) upperhex_ne b

/-- Neither `&` nor `=` nor `;` is left of an escaped text. -/
theorem ne_of_mem_escape {s : Bytes} {c : Byte} (h : c ∈ escape s) : c ≠ 38 ∧ c ≠ 61 ∧ c ≠ 59 := by
  obtain ⟨b, -, hc⟩ := List.mem_flatMap.mp h
  exact mem_escapeByte b c hc

/-! ## §2. Forms. -/

/-- The fields of a form, a key and a value each. -/
structure Values where
  fields : List (Bytes × Bytes)
  inKeyOrder : fields.Pairwise fun f g => f.1 ≤ g.1
  deriving DecidableEq

namespace Values

theorem ext_fields {v v' : Values} (h : v.fields = v'.fields) : v = v' := by
  cases v
  cases v'
  simp only [Values.mk.injEq]
  exact h

/-- Fields in any order. -/
def ofFields (fields : List (Bytes × Bytes)) : Values where
  fields := fields.insertionSort fun f g => f.1 ≤ g.1
  inKeyOrder := by
    have htotal : Std.Total fun f g : Bytes × Bytes => f.1 ≤ g.1 := ⟨fun f g => le_total f.1 g.1⟩
    have htrans : IsTrans (Bytes × Bytes) fun f g => f.1 ≤ g.1 := ⟨fun _ _ _ => le_trans⟩
    exact List.pairwise_insertionSort _ fields

theorem ofFields_fields (v : Values) : ofFields v.fields = v := by
  apply ext_fields
  exact v.inKeyOrder.insertionSort_eq

/-- The first value of a key, and nothing for a key that is not there. -/
def get (v : Values) (key : Bytes) : Bytes := ((v.fields.find? fun f => f.1 = key).map Prod.snd).getD []

/-- The keys of all fields. -/
def keys (v : Values) : List Bytes := v.fields.map Prod.fst

theorem get_of_notMem {v : Values} {key : Bytes} (h : key ∉ v.keys) : v.get key = [] := by
  unfold get
  have hnone : v.fields.find? (fun f => f.1 = key) = none := by
    apply List.find?_eq_none.mpr
    intro f hf hkey
    exact h (List.mem_map.mpr ⟨f, hf, of_decide_eq_true hkey⟩)
  rw [hnone]
  rfl

/-- `key=value`, escaped. -/
def encodeField (field : Bytes × Bytes) : Bytes := escape field.1 ++ 61 :: escape field.2

/-- The fields with `&` between them. -/
def encode (v : Values) : Bytes := [38].intercalate (v.fields.map encodeField)

end Values

/-- What stands before the first `b`, and what stands after it. -/
def cut (b : Byte) (s : Bytes) : Bytes × Bytes := (s.takeWhile (· ≠ b), (s.dropWhile (· ≠ b)).tail)

/-- A field of a form; `none` for a piece that is passed over: an empty one, one with a `;`, one
that does not unescape. -/
def parseField (piece : Bytes) : Option (Bytes × Bytes) :=
  if piece = [] ∨ 59 ∈ piece then none
  else match unescape (cut 61 piece).1, unescape (cut 61 piece).2 with
    | some key, some value => some (key, value)
    | _, _ => none

/-- `ParseQuery`, its errors left out. -/
def parse (s : Bytes) : Values := Values.ofFields ((s.splitOn 38).filterMap parseField)

theorem cut_append {b : Byte} {s t : Bytes} (h : b ∉ s) : cut b (s ++ b :: t) = (s, t) := by
  have hall : ∀ c ∈ s, decide (c ≠ b) = true := by
    intro c hc
    exact decide_eq_true fun hcb => h (hcb ▸ hc)
  unfold cut
  rw [List.takeWhile_append_of_pos hall, List.dropWhile_append_of_pos hall]
  simp

theorem parseField_encodeField (field : Bytes × Bytes) :
    parseField (Values.encodeField field) = some field := by
  have hempty : ¬(Values.encodeField field = [] ∨ 59 ∈ Values.encodeField field) := by
    rintro (h | h)
    · simp [Values.encodeField] at h
    · rcases List.mem_append.mp h with h | h
      · exact (ne_of_mem_escape h).2.2 rfl
      · rcases List.mem_cons.mp h with h | h
        · exact absurd h (by decide)
        · exact (ne_of_mem_escape h).2.2 rfl
  have hcut : cut 61 (Values.encodeField field) = (escape field.1, escape field.2) :=
    cut_append fun h => (ne_of_mem_escape h).2.1 rfl
  unfold parseField
  rw [if_neg hempty, hcut]
  show (match unescape (escape field.1), unescape (escape field.2) with
    | some key, some value => some (key, value)
    | _, _ => none) = _
  rw [unescape_escape, unescape_escape]

theorem notMem_encodeField (field : Bytes × Bytes) : (38 : Byte) ∉ Values.encodeField field := by
  intro h
  rcases List.mem_append.mp h with h | h
  · exact (ne_of_mem_escape h).1 rfl
  · rcases List.mem_cons.mp h with h | h
    · exact absurd h (by decide)
    · exact (ne_of_mem_escape h).1 rfl

/-- **A form that was encoded is read back.** -/
theorem parse_encode (v : Values) : parse v.encode = v := by
  have hfields : (v.encode.splitOn 38).filterMap parseField = v.fields := by
    by_cases hv : v.fields = []
    · -- the empty text is one empty piece
      unfold Values.encode
      rw [hv]
      rfl
    · unfold Values.encode
      rw [List.splitOn_intercalate]
      · rw [List.filterMap_map]
        have hsome : parseField ∘ Values.encodeField = some := by
          funext field
          exact parseField_encodeField field
        rw [hsome, List.filterMap_some]
      · intro piece hpiece
        obtain ⟨field, -, rfl⟩ := List.mem_map.mp hpiece
        exact notMem_encodeField field
      · intro h
        exact hv (List.map_eq_nil_iff.mp h)
  unfold parse
  rw [hfields, Values.ofFields_fields]

/-- **Forms encoded alike are equal.** -/
theorem encode_injective : Function.Injective Values.encode := by
  intro v v' h
  rw [← parse_encode v, h, parse_encode]

/-! ## §3. Forms of texts. -/

/-- The text these bytes are the UTF-8 of. -/
def toText (b : Bytes) : Option String :=
  (b.map UInt8.ofFin).toByteArray.utf8Decode?.map fun cs => String.ofList cs.toList

/-- The text of ASCII bytes. -/
def asText (b : Bytes) : String := String.ofList (b.map fun x => Char.ofNat x.val)

/-- A key with its values, for each key. -/
abbrev Form := List (String × List String)

/-- Each key once, and none without a value. -/
structure Form.WellFormed (v : Form) : Prop where
  nodup : (v.map Prod.fst).Nodup
  nonempty : ∀ p ∈ v, p.2 ≠ []

namespace Form

/-- A field for each value. -/
def fields (v : Form) : List (String × String) := v.flatMap fun p => p.2.map fun value => (p.1, value)

/-- The form with these fields. -/
def ofFields (fields : List (String × String)) : Form :=
  (fields.map Prod.fst).dedup.map fun key => (key, (fields.filter fun f => f.1 = key).map Prod.snd)

/-- `Encode` sorts by key. -/
def inKeyOrder (v : Form) : Form := v.insertionSort fun p q => ofText p.1 ≤ ofText q.1

end Form

/-- `Values.Encode`: the keys in order, the values of each as they come. -/
def encodeText (v : Form) : String :=
  asText (Values.ofFields (v.inKeyOrder.fields.map fun f => (ofText f.1, ofText f.2))).encode

/-- The texts of a field; `none` for one that is no UTF-8. -/
def toTexts (field : Bytes × Bytes) : Option (String × String) :=
  match toText field.1, toText field.2 with
  | some key, some value => some (key, value)
  | _, _ => none

/-- `ParseQuery` of a text, as texts. -/
def parseText (s : String) : Form := Form.ofFields ((parse (ofText s)).fields.filterMap toTexts)

theorem toText_ofText (s : String) : toText (ofText s) = some s := by
  have hbytes : ((ofText s).map UInt8.ofFin).toByteArray = s.toList.utf8Encode := by
    unfold ofText List.utf8Encode
    rw [List.map_flatMap]
    simp only [List.map_map]
    congr 2
    funext c
    exact List.map_id _
  unfold toText
  rw [hbytes, List.utf8Decode?_utf8Encode, Option.map_some, List.toList_toArray, String.ofList_toList]

theorem ofText_injective : Function.Injective ofText := by
  intro s t h
  have hread := toText_ofText s
  rw [h, toText_ofText] at hread
  exact (Option.some.inj hread).symm

theorem toNat_asciiChar {n : Nat} (h : n < 128) : (Char.ofNat n).val.toNat = n := by
  have hvalid : n.isValidChar := .inl (by omega)
  unfold Char.ofNat
  rw [dif_pos hvalid]
  rfl

/-- An ASCII character is one byte. -/
theorem utf8EncodeChar_ascii {x : Byte} (h : x.val < 128) :
    (String.utf8EncodeChar (Char.ofNat x.val)).map UInt8.toFin = [x] := by
  have hval := toNat_asciiChar h
  have hsize : (Char.ofNat x.val).utf8Size = 1 := by
    rw [Char.utf8Size_eq_one_iff, UInt32.le_iff_toNat_le, hval]
    exact Nat.le_of_lt_succ h
  rw [String.utf8EncodeChar_eq_singleton hsize]
  show [UInt8.toFin _] = [x]
  congr 1
  apply Fin.ext
  show (Char.ofNat x.val).val.toUInt8.toNat = x.val
  rw [UInt32.toNat_toUInt8, hval]
  omega

theorem ofText_asText {b : Bytes} (h : ∀ x ∈ b, x.val < 128) : ofText (asText b) = b := by
  unfold asText ofText
  rw [String.toList_ofList, List.flatMap_map]
  induction b with
  | nil => rfl
  | cons x b ih =>
    rw [List.flatMap_cons, utf8EncodeChar_ascii (h x List.mem_cons_self), ih fun y hy => h y (List.mem_cons_of_mem _ hy)]
    rfl

/-! What an encoded form is written with. -/

theorem ascii_upperhex (n : Fin 16) : (upperhex n).val < 128 ∧ upperhex n ≠ 35 := by
  revert n
  decide

theorem ascii_of_isUnreserved {b : Byte} (h : isUnreserved b) : b.val < 128 ∧ b ≠ 35 := by
  constructor
  · simp only [isUnreserved, Bool.or_eq_true, Bool.and_eq_true, decide_eq_true_eq, Fin.le_def, Fin.ext_iff] at h
    simp at h
    omega
  · intro hb
    rw [hb] at h
    exact absurd h (by decide)

theorem ascii_of_mem_escape {s : Bytes} {c : Byte} (h : c ∈ escape s) : c.val < 128 ∧ c ≠ 35 := by
  obtain ⟨b, -, hc⟩ := List.mem_flatMap.mp h
  exact forall_escapeByte (fun _ => ascii_of_isUnreserved) (by decide) (by decide) ascii_upperhex b c hc

/-- **An encoded form is ASCII** without a number sign. -/
theorem ascii_of_mem_encode {v : Values} {c : Byte} (h : c ∈ v.encode) : c.val < 128 ∧ c ≠ 35 := by
  rcases mem_of_mem_intercalate h with hsep | ⟨piece, hpiece, hc⟩
  · obtain rfl := List.mem_singleton.mp hsep
    decide
  · obtain ⟨field, -, rfl⟩ := List.mem_map.mp hpiece
    rcases List.mem_append.mp hc with hkey | hvalue
    · exact ascii_of_mem_escape hkey
    · rcases List.mem_cons.mp hvalue with rfl | hvalue
      · decide
      · exact ascii_of_mem_escape hvalue

theorem numberSign_notMem_encodeText (v : Form) : '#' ∉ (encodeText v).toList := by
  unfold encodeText asText
  rw [String.toList_ofList]
  intro h
  obtain ⟨x, hx, hchar⟩ := List.mem_map.mp h
  obtain ⟨hascii, hne⟩ := ascii_of_mem_encode hx
  have hval := toNat_asciiChar hascii
  rw [hchar] at hval
  exact hne (Fin.ext hval.symm)

/-- A text as one key or value of an encoded form. -/
def escaped (text : String) : String := asText (escape (ofText text))

theorem escaped_plain (text : String) {c : Char} (h : c ∈ (escaped text).toList) :
    ∃ x : Byte, x ∈ escape (ofText text) ∧ c = Char.ofNat x.val := by
  unfold escaped asText at h
  rw [String.toList_ofList] at h
  obtain ⟨x, hx, rfl⟩ := List.mem_map.mp h
  exact ⟨x, hx, rfl⟩

/-- An escaped text is of unreserved characters, plus signs and percent signs. -/
theorem escaped_visible (text : String) : ∀ c ∈ (escaped text).toList, 32 < c.toNat := by
  intro c hc
  obtain ⟨x, hx, rfl⟩ := escaped_plain text hc
  have hvisible : 32 < x.val := by
    obtain ⟨b, -, hb⟩ := List.mem_flatMap.mp hx
    refine forall_escapeByte (P := fun y => 32 < y.val) (fun y hy => ?_) (by decide) (by decide) (by decide) b x hb
    simp only [isUnreserved, Bool.or_eq_true, Bool.and_eq_true, decide_eq_true_eq, Fin.le_def, Fin.ext_iff] at hy
    simp at hy
    omega
  have hascii := (ascii_of_mem_escape hx).1
  have hvalue : (Char.ofNat x.val).toNat = x.val := toNat_asciiChar hascii
  rw [hvalue]
  exact hvisible

/-! What is read back of it. -/

namespace Form

theorem mem_keys_fields {v : Form} {key : String} (h : key ∈ v.fields.map Prod.fst) : key ∈ v.map Prod.fst := by
  obtain ⟨field, hfield, rfl⟩ := List.mem_map.mp h
  obtain ⟨p, hp, hvalue⟩ := List.mem_flatMap.mp hfield
  obtain ⟨value, -, rfl⟩ := List.mem_map.mp hvalue
  exact List.mem_map_of_mem hp

theorem wellFormed_ofFields (fields : List (String × String)) : (ofFields fields).WellFormed where
  nodup := by
    unfold ofFields
    rw [List.map_map]
    show (List.map id _).Nodup
    rw [List.map_id]
    exact List.nodup_dedup _
  nonempty := by
    intro p hp
    obtain ⟨key, hkey, rfl⟩ := List.mem_map.mp hp
    obtain ⟨field, hfield, rfl⟩ := List.mem_map.mp (List.mem_dedup.mp hkey)
    have hmem : field ∈ fields.filter fun f => f.1 = field.1 :=
      List.mem_filter.mpr ⟨hfield, decide_eq_true rfl⟩
    intro hnil
    rw [List.map_eq_nil_iff.mp hnil] at hmem
    exact List.not_mem_nil hmem

/-- A key's copies before others that are not it leave one. -/
theorem dedup_replicate_append {key : String} {keys : List String} (h : key ∉ keys) (n : Nat) :
    (List.replicate (n + 1) key ++ keys).dedup = key :: keys.dedup := by
  induction n with
  | zero => exact List.dedup_cons_of_notMem h
  | succ n ih =>
    rw [List.replicate_succ, List.cons_append, List.dedup_cons_of_mem, ih]
    exact List.mem_append_left _ (by simp)

/-- **The fields of a form make the form again.** -/
theorem ofFields_fields {v : Form} (h : v.WellFormed) : ofFields v.fields = v := by
  induction v with
  | nil => rfl
  | cons p v ih =>
    obtain ⟨key, values⟩ := p
    obtain ⟨hkey, hnodup⟩ := List.nodup_cons.mp h.nodup
    have hrest := ih ⟨hnodup, fun p hp => h.nonempty p (List.mem_cons_of_mem _ hp)⟩
    have hfresh : key ∉ (fields v).map Prod.fst := fun hmem => hkey (mem_keys_fields hmem)
    have hfields : fields ((key, values) :: v) = values.map (fun value => (key, value)) ++ fields v := rfl
    have hdedup : ((fields ((key, values) :: v)).map Prod.fst).dedup = key :: ((fields v).map Prod.fst).dedup := by
      obtain ⟨n, hn⟩ := Nat.exists_eq_succ_of_ne_zero
        (fun hzero => h.nonempty (key, values) List.mem_cons_self (List.length_eq_zero_iff.mp hzero))
      have hkeys : (values.map fun value => (key, value)).map Prod.fst = List.replicate (n + 1) key := by
        rw [List.map_map, ← Nat.succ_eq_add_one, ← hn]
        exact List.map_const' ..
      rw [hfields, List.map_append, hkeys, dedup_replicate_append hfresh]
    -- the values of the first key are its own, and it takes no others'
    have hown : ((fields ((key, values) :: v)).filter fun f => f.1 = key).map Prod.snd = values := by
      rw [hfields, List.filter_append, List.filter_eq_self.mpr, List.filter_eq_nil_iff.mpr, List.append_nil,
        List.map_map]
      · exact List.map_id _
      · intro f hf hname
        exact hfresh (of_decide_eq_true hname ▸ List.mem_map_of_mem hf)
      · intro f hf
        obtain ⟨value, -, rfl⟩ := List.mem_map.mp hf
        exact decide_eq_true rfl
    have hothers : ∀ key' ∈ ((fields v).map Prod.fst).dedup,
        (fields ((key, values) :: v)).filter (fun f => f.1 = key') = (fields v).filter fun f => f.1 = key' := by
      intro key' hkey'
      have hne : key ≠ key' := fun heq => hfresh (heq ▸ List.mem_dedup.mp hkey')
      rw [hfields, List.filter_append, List.filter_eq_nil_iff.mpr, List.nil_append]
      intro f hf
      obtain ⟨value, -, rfl⟩ := List.mem_map.mp hf
      exact fun hname => hne (of_decide_eq_true hname)
    unfold ofFields
    rw [hdedup, List.map_cons, hown]
    congr 1
    refine (List.map_congr_left fun key' hkey' => ?_).trans hrest
    rw [hothers key' hkey']

end Form

theorem inKeyOrder_perm (v : Form) : v.inKeyOrder.Perm v := List.perm_insertionSort _ v

theorem pairwise_inKeyOrder (v : Form) : v.inKeyOrder.Pairwise fun p q => ofText p.1 ≤ ofText q.1 := by
  have htotal : Std.Total fun p q : String × List String => ofText p.1 ≤ ofText q.1 :=
    ⟨fun p q => le_total (ofText p.1) (ofText q.1)⟩
  have htrans : IsTrans (String × List String) fun p q => ofText p.1 ≤ ofText q.1 := ⟨fun _ _ _ => le_trans⟩
  exact List.pairwise_insertionSort _ v

theorem Form.WellFormed.perm {v w : Form} (h : v.WellFormed) (hperm : v.Perm w) : w.WellFormed where
  nodup := (hperm.map Prod.fst).nodup h.nodup
  nonempty := fun p hp => h.nonempty p (hperm.mem_iff.mpr hp)

/-- The fields of a form in key order are in key order. -/
theorem pairwise_fields {v : Form} (h : v.Pairwise fun p q => ofText p.1 ≤ ofText q.1) :
    (v.fields.map fun f => (ofText f.1, ofText f.2)).Pairwise fun f g => f.1 ≤ g.1 := by
  unfold Form.fields
  rw [List.map_flatMap, List.pairwise_flatMap]
  constructor
  · intro p _
    rw [List.map_map, List.pairwise_map]
    exact List.pairwise_of_forall fun _ _ => le_refl _
  · refine h.imp fun {p q} hpq f hf g hg => ?_
    rw [List.map_map] at hf hg
    obtain ⟨value, -, rfl⟩ := List.mem_map.mp hf
    obtain ⟨value', -, rfl⟩ := List.mem_map.mp hg
    exact hpq

/-- **What is written of a form**: its fields in key order, escaped, between separators. -/
theorem toList_encodeText (v : Form) :
    (encodeText v).toList = ['&'].intercalate
      (v.inKeyOrder.fields.map fun f => (escaped f.1).toList ++ '=' :: (escaped f.2).toList) := by
  have hsorted : (Values.ofFields (v.inKeyOrder.fields.map fun f => (ofText f.1, ofText f.2))).fields
      = v.inKeyOrder.fields.map fun f => (ofText f.1, ofText f.2) :=
    (pairwise_fields (pairwise_inKeyOrder v)).insertionSort_eq
  have hjoin : ∀ pieces : List Bytes, (List.intercalate [38] pieces).map (fun x : Byte => Char.ofNat x.val)
      = ['&'].intercalate (pieces.map fun piece => piece.map fun x : Byte => Char.ofNat x.val) := by
    intro pieces
    induction pieces with
    | nil => rfl
    | cons piece rest ih =>
      by_cases hrest : rest = []
      · subst hrest
        simp
      · have hrest' : rest.map (fun piece : Bytes => piece.map fun x : Byte => Char.ofNat x.val) ≠ [] :=
          fun h => hrest (List.map_eq_nil_iff.mp h)
        rw [List.intercalate_cons_of_ne_nil hrest, List.map_cons, List.intercalate_cons_of_ne_nil hrest',
          List.map_append, List.map_append, ih]
        rfl
  unfold encodeText asText Values.encode
  rw [String.toList_ofList, hsorted, hjoin, List.map_map, List.map_map]
  congr 1
  refine List.map_congr_left fun f _ => ?_
  show (escape (ofText f.1) ++ 61 :: escape (ofText f.2)).map _ = _
  unfold escaped asText
  rw [List.map_append, List.map_cons, String.toList_ofList, String.toList_ofList]
  rfl

/-- **A form of texts that was encoded is read back**, its keys in their order. -/
theorem parseText_encodeText {v : Form} (h : v.WellFormed) : parseText (encodeText v) = v.inKeyOrder := by
  have hbytes : ofText (encodeText v)
      = (Values.ofFields (v.inKeyOrder.fields.map fun f => (ofText f.1, ofText f.2))).encode :=
    ofText_asText fun x hx => (ascii_of_mem_encode hx).1
  have hsorted : (Values.ofFields (v.inKeyOrder.fields.map fun f => (ofText f.1, ofText f.2))).fields
      = v.inKeyOrder.fields.map fun f => (ofText f.1, ofText f.2) :=
    (pairwise_fields (pairwise_inKeyOrder v)).insertionSort_eq
  have hread : toTexts ∘ (fun f : String × String => (ofText f.1, ofText f.2)) = some := by
    funext f
    show (match toText (ofText f.1), toText (ofText f.2) with
      | some key, some value => some (key, value)
      | _, _ => none) = some f
    rw [toText_ofText, toText_ofText]
  unfold parseText
  rw [hbytes, parse_encode, hsorted, List.filterMap_map, hread, List.filterMap_some]
  exact Form.ofFields_fields (h.perm (inKeyOrder_perm v).symm)

/-- **The order of the keys is not seen.** -/
theorem encodeText_perm {v w : Form} (h : v.WellFormed) (hperm : v.Perm w) : encodeText v = encodeText w := by
  have horder : v.inKeyOrder = w.inKeyOrder := by
    refine List.Perm.eq_of_pairwise ?_ (pairwise_inKeyOrder v) (pairwise_inKeyOrder w)
      ((inKeyOrder_perm v).trans (hperm.trans (inKeyOrder_perm w).symm))
    intro p q hp hq hle hge
    have hkeys : p.1 = q.1 := ofText_injective (le_antisymm hle hge)
    have hp' := (inKeyOrder_perm v).mem_iff.mp hp
    have hq' := hperm.mem_iff.mpr ((inKeyOrder_perm w).mem_iff.mp hq)
    exact List.inj_on_of_nodup_map h.nodup hp' hq' hkeys
  unfold encodeText
  rw [horder]

end Foundation.QueryString
