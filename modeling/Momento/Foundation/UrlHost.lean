/-
  Momento.Foundation.UrlHost

  **THE HOST OF A URL.**  What `url.Parse(raw)` and then `URL.Hostname()` make of a
  text: the fragment and the query are cut off, the scheme is split off, the authority
  stands between `//` and the next slash, the user before the last `@`, the port
  behind the last colon, an IP literal in brackets.

  The percent escapes, and the checks that do nothing but refuse a text, are left to
  the `Rules`.
-/
import Mathlib.Data.List.TakeWhile
import Mathlib.Data.List.Infix

namespace Foundation.UrlHost

/-! ## §1. The parts of a text. -/

/-- What is behind the last `c`. -/
def afterLast (c : Char) (s : List Char) : List Char := (s.reverse.takeWhile (· ≠ c)).reverse

/-- What is in front of the last `c`. -/
def beforeLast (c : Char) (s : List Char) : List Char := (s.reverse.dropWhile (· ≠ c)).tail.reverse

/-- The rest of `net/url`: `refuses` is an error of a check, `unescape` undoes percent
escapes and changes nothing where there are none. -/
structure Rules where
  refuses : List Char → Bool
  unescape : List Char → Option (List Char)
  unescape_plain : ∀ s, '%' ∉ s → unescape s = some s

/-- `validOptionalPort`. -/
def validOptionalPort : List Char → Bool
  | [] => true
  | c :: digits => c = ':' && digits.all Char.isDigit

/-- What a scheme may have after its first letter. -/
def isSchemeChar (c : Char) : Bool := c.isAlphanum || c = '+' || c = '-' || c = '.'

/-- `getScheme`: a text that starts with no scheme has the empty one; `none` is an error. -/
def getScheme (s : List Char) : Option (List Char × List Char) :=
  match s.takeWhile isSchemeChar, s.dropWhile isSchemeChar with
  | [], ':' :: _ => none
  | first :: name, ':' :: rest =>
    if first.isAlpha then some ((first :: name).map Char.toLower, rest) else some ([], s)
  | _, _ => some ([], s)

section
variable (rules : Rules)

/-- `parseHost`. -/
def parseHost (host : List Char) : Option (List Char) :=
  if '[' ∈ host then
    match host with
    | '[' :: inside =>
      if '[' ∈ inside ∨ ']' ∉ inside then none
      else if validOptionalPort (afterLast ']' inside) then
        (rules.unescape (beforeLast ']' inside)).map fun address => '[' :: address ++ ']' :: afterLast ']' inside
      else none
    | _ => none
  else if ':' ∈ host ∧ !validOptionalPort (':' :: afterLast ':' host) then none
  else rules.unescape host

/-- `splitHostPort`, the host alone. -/
def stripPort (host : List Char) : List Char :=
  if ':' ∈ host ∧ validOptionalPort (':' :: afterLast ':' host) then beforeLast ':' host else host

/-- The brackets of an IPv6 literal go. -/
def stripBrackets : List Char → List Char
  | '[' :: rest => if rest.getLast? = some ']' then rest.dropLast else '[' :: rest
  | host => host

/-- `parseAuthority`, the host alone: the user's name and password stand before the last
at sign. -/
def withoutUser (authority : List Char) : List Char :=
  if '@' ∈ authority then afterLast '@' authority else authority

/-- `Parse`, then `Hostname`; `none` is an error. -/
def hostname (raw : List Char) : Option (List Char) :=
  if rules.refuses raw then none
  else do
    let (scheme, rest) ← getScheme (raw.takeWhile (· ≠ '#'))
    let rest := rest.takeWhile (· ≠ '?')
    if rest.take 2 = ['/', '/'] ∧ (scheme ≠ [] ∨ rest.take 3 ≠ ['/', '/', '/']) then
      let host ← parseHost rules (withoutUser ((rest.drop 2).takeWhile (· ≠ '/')))
      return stripBrackets (stripPort host)
    else return []

end

/-! ## §2. The last of a character. -/

theorem afterLast_append {c : Char} (front : List Char) {behind : List Char} (h : c ∉ behind) :
    afterLast c (front ++ c :: behind) = behind := by
  have hall : ∀ x ∈ behind.reverse, (decide (x ≠ c)) = true := fun x hx =>
    decide_eq_true fun heq => h (heq ▸ List.mem_reverse.mp hx)
  unfold afterLast
  rw [List.reverse_append, List.reverse_cons, List.append_assoc, List.takeWhile_append_of_pos hall]
  simp

theorem beforeLast_append {c : Char} (front : List Char) {behind : List Char} (h : c ∉ behind) :
    beforeLast c (front ++ c :: behind) = front := by
  have hall : ∀ x ∈ behind.reverse, (decide (x ≠ c)) = true := fun x hx =>
    decide_eq_true fun heq => h (heq ▸ List.mem_reverse.mp hx)
  unfold beforeLast
  rw [List.reverse_append, List.reverse_cons, List.append_assoc, List.dropWhile_append_of_pos hall]
  simp

/-! ## §3. A text with a scheme. -/

/-- A path, or none: what follows an authority. -/
def IsPath (path : List Char) : Prop := path = [] ∨ ∃ rest, path = '/' :: rest

theorem IsPath.takeWhile {path : List Char} (h : IsPath path) {p : Char → Bool} (hslash : p '/' = true) :
    IsPath (path.takeWhile p) := by
  obtain rfl | ⟨rest, rfl⟩ := h
  · exact .inl rfl
  · exact .inr ⟨rest.takeWhile p, List.takeWhile_cons_of_pos hslash⟩

/-- What stands before the path. -/
theorem takeWhile_slash {front path : List Char} (hfront : '/' ∉ front) (hpath : IsPath path) :
    (front ++ path).takeWhile (· ≠ '/') = front := by
  have hall : ∀ x ∈ front, (decide (x ≠ '/')) = true := fun x hx => decide_eq_true fun h => hfront (h ▸ hx)
  rw [List.takeWhile_append_of_pos hall]
  obtain rfl | ⟨rest, rfl⟩ := hpath
  · simp
  · simp

/-- A scheme's name. -/
structure IsScheme (scheme : List Char) : Prop where
  letters : ∀ c ∈ scheme, c.isAlpha = true
  nonempty : scheme ≠ []

theorem IsScheme.chars {scheme : List Char} (h : IsScheme scheme) : ∀ c ∈ scheme, isSchemeChar c = true := by
  intro c hc
  simp [isSchemeChar, Char.isAlphanum, h.letters c hc]

theorem getScheme_append {scheme : List Char} (h : IsScheme scheme) (rest : List Char) :
    getScheme (scheme ++ ':' :: rest) = some (scheme.map Char.toLower, rest) := by
  have htake : (scheme ++ ':' :: rest).takeWhile isSchemeChar = scheme := by
    rw [List.takeWhile_append_of_pos h.chars]
    simp [show isSchemeChar ':' = false by decide]
  have hdrop : (scheme ++ ':' :: rest).dropWhile isSchemeChar = ':' :: rest := by
    rw [List.dropWhile_append_of_pos h.chars]
    simp [show isSchemeChar ':' = false by decide]
  obtain ⟨first, name, rfl⟩ := List.exists_cons_of_ne_nil h.nonempty
  unfold getScheme
  rw [htake, hdrop]
  exact if_pos (h.letters first List.mem_cons_self)

/-- An authority without a user, a query or a fragment. -/
def IsAuthority (authority : List Char) : Prop := ∀ c ∈ ['/', '?', '#', '@'], c ∉ authority

/-- **A text `scheme://authority/path` has the authority's host.** -/
theorem hostname_authority (rules : Rules) {scheme authority path : List Char} (hscheme : IsScheme scheme)
    (hauthority : IsAuthority authority) (hpath : IsPath path) :
    hostname rules (scheme ++ ':' :: '/' :: '/' :: (authority ++ path))
      = if rules.refuses (scheme ++ ':' :: '/' :: '/' :: (authority ++ path)) then none
        else (parseHost rules authority).map fun host => stripBrackets (stripPort host) := by
  have hkeep : ∀ (c : Char) (rest : List Char), c ∈ ['?', '#'] →
      (authority ++ rest).takeWhile (· ≠ c) = authority ++ rest.takeWhile (· ≠ c) := by
    intro c rest hc
    have hnot : c ∉ authority := hauthority c (by
      simp only [List.mem_cons, List.not_mem_nil, or_false] at hc ⊢
      tauto)
    exact List.takeWhile_append_of_pos fun x hx => decide_eq_true fun h => hnot (h ▸ hx)
  have hschemeMark : ∀ x ∈ scheme, (decide (x ≠ '#')) = true := by
    intro x hx
    refine decide_eq_true fun h => ?_
    have hletter := hscheme.letters x hx
    rw [h] at hletter
    exact absurd hletter (by decide)
  have hfragment : (scheme ++ ':' :: '/' :: '/' :: (authority ++ path)).takeWhile (· ≠ '#')
      = scheme ++ ':' :: '/' :: '/' :: (authority ++ path.takeWhile (· ≠ '#')) := by
    rw [List.takeWhile_append_of_pos hschemeMark, List.takeWhile_cons_of_pos (by decide),
      List.takeWhile_cons_of_pos (by decide), List.takeWhile_cons_of_pos (by decide), hkeep '#' path (by simp)]
  have hquery : ('/' :: '/' :: (authority ++ path.takeWhile (· ≠ '#'))).takeWhile (· ≠ '?')
      = '/' :: '/' :: (authority ++ (path.takeWhile (· ≠ '#')).takeWhile (· ≠ '?')) := by
    rw [List.takeWhile_cons_of_pos (by decide), List.takeWhile_cons_of_pos (by decide), hkeep '?' _ (by simp)]
  have hslash : (authority ++ (path.takeWhile (· ≠ '#')).takeWhile (· ≠ '?')).takeWhile (· ≠ '/') = authority :=
    takeWhile_slash (hauthority '/' (by simp)) ((hpath.takeWhile (by decide)).takeWhile (by decide))
  have huser : withoutUser authority = authority := if_neg (hauthority '@' (by simp))
  have hname : scheme.map Char.toLower ≠ [] := by simpa using hscheme.nonempty
  unfold hostname
  split
  · rfl
  rw [hfragment, getScheme_append hscheme]
  dsimp only [bind, Option.bind, pure]
  rw [hquery, if_pos ⟨rfl, .inl hname⟩]
  dsimp only [List.drop]
  rw [hslash, huser]
  cases parseHost rules authority with
  | none => rfl
  | some host => rfl

/-! ## §4. Names and literals. -/

/-- A port, or none. -/
def IsPort (port : List Char) : Prop := port = [] ∨ ∃ digits : List Char, port = ':' :: digits ∧ ∀ c ∈ digits, c.isDigit = true

theorem validOptionalPort_of_isPort {port : List Char} (h : IsPort port) : validOptionalPort port = true := by
  obtain rfl | ⟨digits, rfl, hdigits⟩ := h
  · rfl
  · simp only [validOptionalPort, decide_true, Bool.true_and, List.all_eq_true]
    exact hdigits

theorem not_mem_of_digits {digits : List Char} (h : ∀ c ∈ digits, c.isDigit = true) {c : Char}
    (hc : c.isDigit = false) : c ∉ digits := by
  intro hmem
  rw [h c hmem] at hc
  cases hc

/-- A port is split off a host that ends in none. -/
theorem stripPort_append {host port : List Char} (hport : IsPort port)
    (hhost : ':' ∉ host ∨ validOptionalPort (':' :: afterLast ':' host) = false) :
    stripPort (host ++ port) = host := by
  unfold stripPort
  obtain rfl | ⟨digits, rfl, hdigits⟩ := hport
  · rw [List.append_nil]
    refine if_neg fun h => ?_
    obtain hnone | hinvalid := hhost
    · exact hnone h.1
    · rw [h.2] at hinvalid
      cases hinvalid
  · have hcolon : ':' ∉ digits := not_mem_of_digits hdigits (by decide)
    rw [afterLast_append host hcolon, beforeLast_append host hcolon]
    refine if_pos ⟨by simp, ?_⟩
    exact validOptionalPort_of_isPort (.inr ⟨digits, rfl, hdigits⟩)

/-- A name: no delimiter of URLs is in it, and no percent escape. -/
def IsName (name : List Char) : Prop := ∀ c ∈ ['/', '?', '#', '@', ':', '[', ']', '%'], c ∉ name

/-- A fixed name, character by character. -/
theorem isName_of_all {name : List Char}
    (h : name.all (fun c => decide (c ∉ ['/', '?', '#', '@', ':', '[', ']', '%'])) = true) : IsName name := by
  intro c hc hmem
  exact of_decide_eq_true (List.all_eq_true.mp h c hmem) hc

/-- The text of an IP address of colons. -/
def IsAddress (address : List Char) : Prop := ∀ c ∈ ['/', '?', '#', '@', '[', ']', '%'], c ∉ address

theorem not_mem_port {port : List Char} (h : IsPort port) {c : Char} (hc : c.isDigit = false) (hcolon : c ≠ ':') :
    c ∉ port := by
  obtain rfl | ⟨digits, rfl, hdigits⟩ := h
  · exact List.not_mem_nil
  · intro hmem
    obtain heq | hmem := List.mem_cons.mp hmem
    · exact hcolon heq
    · exact not_mem_of_digits hdigits hc hmem

theorem parseHost_name (rules : Rules) {name port : List Char} (hname : IsName name) (hport : IsPort port) :
    parseHost rules (name ++ port) = some (name ++ port) := by
  have hnot : ∀ c ∈ ['[', '%'], c ∉ name ++ port := by
    intro c hc hmem
    simp only [List.mem_cons, List.not_mem_nil, or_false] at hc
    obtain hin | hin := List.mem_append.mp hmem
    · exact hname c (by simp; tauto) hin
    · refine not_mem_port hport ?_ ?_ hin
      · obtain rfl | rfl := hc <;> decide
      · obtain rfl | rfl := hc <;> decide
  have hvalid : ¬(':' ∈ name ++ port ∧ (!validOptionalPort (':' :: afterLast ':' (name ++ port))) = true) := by
    obtain rfl | ⟨digits, rfl, hdigits⟩ := hport
    · rw [List.append_nil]
      exact fun h => hname ':' (by simp) h.1
    · rw [afterLast_append name (not_mem_of_digits hdigits (by decide)),
        validOptionalPort_of_isPort (.inr ⟨digits, rfl, hdigits⟩)]
      exact fun h => Bool.false_ne_true h.2
  unfold parseHost
  rw [if_neg (hnot '[' (by simp)), if_neg hvalid, rules.unescape_plain _ (hnot '%' (by simp))]

theorem stripBrackets_name {name : List Char} (h : '[' ∉ name) : stripBrackets name = name := by
  unfold stripBrackets
  split
  · exact absurd List.mem_cons_self h
  · rfl

/-- **A name is its own host**, -/
theorem hostname_name (rules : Rules) {scheme name port path : List Char} (hscheme : IsScheme scheme)
    (hname : IsName name) (hport : IsPort port) (hpath : IsPath path) :
    hostname rules (scheme ++ ':' :: '/' :: '/' :: (name ++ port ++ path))
      = if rules.refuses (scheme ++ ':' :: '/' :: '/' :: (name ++ port ++ path)) then none else some name := by
  have hauthority : IsAuthority (name ++ port) := by
    intro c hc hmem
    simp only [List.mem_cons, List.not_mem_nil, or_false] at hc
    obtain hin | hin := List.mem_append.mp hmem
    · exact hname c (by simp; tauto) hin
    · refine not_mem_port hport ?_ ?_ hin
      · obtain rfl | rfl | rfl | rfl := hc <;> decide
      · obtain rfl | rfl | rfl | rfl := hc <;> decide
  rw [hostname_authority rules hscheme hauthority hpath, parseHost_name rules hname hport, Option.map_some,
    stripPort_append hport (.inl (hname ':' (by simp))), stripBrackets_name (hname '[' (by simp))]

theorem parseHost_literal (rules : Rules) {address port : List Char} (haddress : IsAddress address)
    (hport : IsPort port) :
    parseHost rules ('[' :: address ++ ']' :: port) = some ('[' :: address ++ ']' :: port) := by
  have hbracket : ']' ∉ port := not_mem_port hport (by decide) (by decide)
  have hopen : '[' ∉ address ++ ']' :: port := by
    intro hmem
    obtain hin | hin := List.mem_append.mp hmem
    · exact haddress '[' (by simp) hin
    · obtain heq | hin := List.mem_cons.mp hin
      · exact absurd heq (by decide)
      · exact not_mem_port hport (by decide) (by decide) hin
  have hclose : ¬('[' ∈ address ++ ']' :: port ∨ ']' ∉ address ++ ']' :: port) := by
    intro h
    obtain hin | hnone := h
    · exact hopen hin
    · exact hnone (by simp)
  unfold parseHost
  rw [if_pos (by simp), List.cons_append]
  show (if '[' ∈ address ++ ']' :: port ∨ ']' ∉ address ++ ']' :: port then none
    else if validOptionalPort (afterLast ']' (address ++ ']' :: port)) then
      (rules.unescape (beforeLast ']' (address ++ ']' :: port))).map fun text =>
        '[' :: text ++ ']' :: afterLast ']' (address ++ ']' :: port)
    else none) = some ('[' :: (address ++ ']' :: port))
  rw [if_neg hclose, afterLast_append address hbracket, beforeLast_append address hbracket,
    if_pos (validOptionalPort_of_isPort hport), rules.unescape_plain address (haddress '%' (by simp)),
    Option.map_some]
  rfl

/-- **and the host of a literal is what is in the brackets.** -/
theorem hostname_literal (rules : Rules) {scheme address port path : List Char} (hscheme : IsScheme scheme)
    (haddress : IsAddress address) (hport : IsPort port) (hpath : IsPath path) :
    hostname rules (scheme ++ ':' :: '/' :: '/' :: ('[' :: address ++ ']' :: port ++ path))
      = if rules.refuses (scheme ++ ':' :: '/' :: '/' :: ('[' :: address ++ ']' :: port ++ path)) then none
        else some address := by
  have hauthority : IsAuthority ('[' :: address ++ ']' :: port) := by
    intro c hc hmem
    simp only [List.mem_cons, List.not_mem_nil, or_false] at hc
    rw [List.cons_append, List.mem_cons, List.mem_append, List.mem_cons] at hmem
    obtain heq | hin | heq | hin := hmem
    · obtain rfl | rfl | rfl | rfl := hc <;> exact absurd heq (by decide)
    · exact haddress c (by simp; tauto) hin
    · obtain rfl | rfl | rfl | rfl := hc <;> exact absurd heq (by decide)
    · refine not_mem_port hport ?_ ?_ hin
      · obtain rfl | rfl | rfl | rfl := hc <;> decide
      · obtain rfl | rfl | rfl | rfl := hc <;> decide
  -- the last colon of a literal without a port is in the brackets
  have hcolon : ':' ∉ '[' :: address ++ [']'] ∨ validOptionalPort (':' :: afterLast ':' ('[' :: address ++ [']'])) = false := by
    right
    have hlast : ']' ∈ afterLast ':' ('[' :: address ++ [']']) := by
      unfold afterLast
      rw [List.reverse_append, List.reverse_singleton, List.singleton_append,
        List.takeWhile_cons_of_pos (by decide), List.mem_reverse]
      exact List.mem_cons_self
    simp only [validOptionalPort, decide_true, Bool.true_and, List.all_eq_false]
    exact ⟨']', hlast, by decide⟩
  have hstrip : stripPort ('[' :: address ++ ']' :: port) = '[' :: address ++ [']'] := by
    rw [show '[' :: address ++ ']' :: port = ('[' :: address ++ [']']) ++ port by simp]
    exact stripPort_append hport hcolon
  rw [hostname_authority rules hscheme hauthority hpath, parseHost_literal rules haddress hport, Option.map_some,
    hstrip]
  have hbrackets : stripBrackets ('[' :: address ++ [']']) = address := by
    show (if (address ++ [']']).getLast? = some ']' then (address ++ [']']).dropLast
      else '[' :: (address ++ [']'])) = address
    rw [List.getLast?_concat, if_pos rfl, List.dropLast_concat]
  rw [hbrackets]

end Foundation.UrlHost
