/-
  Momento.Http.TimelinePages

  **A TIMELINE PAGE BY PAGE.**  A page of the visitor timeline is the newest events
  of the window, read as visits, with a cursor to the next: the time of the last event
  as RFC 3339 text and its row id.  Rows with one timestamp may lie on both sides of
  the cursor.

  A time in a query is a number of microseconds: the bounds of the window are cut.
-/
import Momento.Foundation.KeysetPages
import Momento.Foundation.TimeText
import Momento.Http.TraceSessions

namespace Momento.Http.Trace

open Foundation Foundation.Calendar Foundation.KeysetPages

/-! ## §1. The query. -/

/-- `timelineEventLimit`. -/
def timelineEventLimit : Nat := 200

/-- The limit a request asks for, where it is one. -/
def pageLimit (asked : Int) : Nat :=
  if asked ≤ 0 ∨ 500 < asked then timelineEventLimit else asked.toNat

/-- A subject's timeline: whose events, and the window in nanoseconds. -/
structure Timeline where
  siteId : Uuid
  environment : String
  visitorIds : List String
  from_ : Int
  to_ : Int

/-- A time as a parameter of a query: whole microseconds. -/
def timestamptz (t : Int) : Instant := t / 1000

/-- `ORDER BY event_timestamp DESC, id DESC`. -/
def newestFirst (a b : RawEvent) : Bool :=
  b.eventTimestamp < a.eventTimestamp ∨ (b.eventTimestamp = a.eventTimestamp ∧ b.id ≤ a.id)

/-- `WHERE` without the upper bound. -/
def Timeline.selects (q : Timeline) (r : RawEvent) : Bool :=
  r.siteId = q.siteId && r.visitorId ∈ q.visitorIds && r.environment = q.environment
    && timestamptz q.from_ ≤ r.eventTimestamp

/-- The upper bound: a time, and the id its rows stay under. -/
def under (before : Instant) (beforeId : Int) (r : RawEvent) : Bool :=
  r.eventTimestamp ≤ before && (r.eventTimestamp < before ∨ (r.id : Int) < beforeId)

/-- The rows `traceEvents` asks for, without the limit. -/
def Timeline.rowsUnder (q : Timeline) (store : Store) (before : Int) (beforeId : Int) : List RawEvent :=
  (store.rawEvents.rows.filter fun r => q.selects r && under (timestamptz before) beforeId r).mergeSort newestFirst

/-- `traceEvents`: one row more than the page holds says that there is another page. -/
def traceEvents (q : Timeline) (store : Store) (before : Int) (beforeId : Int) (limit : Nat) :
    List TraceEvent × Bool :=
  let events := ((q.rowsUnder store before beforeId).take (limit + 1)).map fun r => { row := r }
  let hasMore := limit < events.length
  (if hasMore then events.take limit else events, hasMore)

/-! ## §2. The cursor. -/

/-- The parameters `before` and `before_id`. -/
structure Cursor where
  before : String := ""
  beforeId : String := ""
  deriving DecidableEq

section
variable (layouts : List Char → Option Int)

/-- The cursor as the handler reads it: a bound in nanoseconds, and an id.  `layouts` is
the general parser of `time.Parse`. -/
def cursorOf (to_ : Int) (cursor : Cursor) : Except String (Int × Int) :=
  let raw := trimSpace cursor.before
  if raw = "" then .ok (to_, 0)
  else match TimeText.parse layouts raw.toList with
    | none => .error "before must be an RFC3339 timestamp"
    | some parsed =>
      let rawId := trimSpace cursor.beforeId
      let cursorId := if rawId = "" then some 0 else (TimeText.parseInt rawId.toList).filter (0 < ·)
      match cursorId with
      | none => .error "before_id must be a positive integer"
      | some cursorId => .ok (if parsed < to_ then (parsed, cursorId) else (to_, 0))

/-- `next_before` and `next_before_id` after a row. -/
def cursorAfter (r : RawEvent) : Cursor where
  before := String.ofList (TimeText.formatRfc3339Nano (1000 * r.eventTimestamp))
  beforeId := String.ofList (TimeText.formatInt r.id)

/-- What the handler answers of the page. -/
structure TimelinePage where
  events : List TraceEvent
  sessions : List TraceSession
  limit : Nat
  hasMore : Bool
  next : Cursor

/-- `visitorTimeline`, from the cursor on. -/
def visitorTimeline (q : Timeline) (store : Store) (asked : Int) (cursor : Cursor) : Except String TimelinePage := do
  let limit := pageLimit asked
  let (before, beforeId) ← cursorOf layouts q.to_ cursor
  let (events, hasMore) := traceEvents q store before beforeId limit
  let sessions := groupTraceSessions store.sessions q.siteId q.environment events
  let next := if hasMore then (events.getLast?.map fun e => cursorAfter e.row).getD {} else {}
  return { events, sessions, limit, hasMore, next }

/-- A reader that follows the cursors until there is no more: so many pages at most.
`none` is one still reading, or one that was refused. -/
def readTimeline (q : Timeline) (store : Store) (asked : Int) : Nat → Cursor → Option (List TraceEvent)
  | 0, _ => none
  | n + 1, cursor =>
    match visitorTimeline layouts q store asked cursor with
    | .error _ => none
    | .ok page =>
      if page.hasMore then (readTimeline q store asked n page.next).map (page.events ++ ·)
      else some page.events

end

/-! ## §3. A cursor is read back. -/

theorem isSpace_timeChar {c : Char} (h : TimeText.IsTimeChar c) : isSpace c = false := by
  obtain hdigit | hmark := h
  · have hrange : 48 ≤ c.toNat ∧ c.toNat ≤ 57 := by
      rw [Char.isDigit, Bool.and_eq_true, decide_eq_true_eq, decide_eq_true_eq] at hdigit
      exact ⟨hdigit.1, hdigit.2⟩
    unfold isSpace
    simp only [Bool.or_eq_false_iff, Bool.and_eq_false_iff, decide_eq_false_iff_not]
    omega
  · simp only [List.mem_cons, List.not_mem_nil, or_false] at hmark
    obtain rfl | rfl | rfl | rfl | rfl := hmark
    all_goals decide

/-- A text without blanks is not trimmed. -/
theorem trimSpace_plain {s : List Char} (h : ∀ c ∈ s, isSpace c = false) :
    trimSpace (String.ofList s) = String.ofList s := by
  have hkeep : ∀ l : List Char, (∀ c ∈ l, isSpace c = false) → l.dropWhile isSpace = l := by
    intro l hl
    cases l with
    | nil => rfl
    | cons c rest => exact List.dropWhile_cons_of_neg (by simp [hl c List.mem_cons_self])
  rw [trimSpace, String.toList_ofList, hkeep s h, hkeep s.reverse fun c hc => h c (List.mem_reverse.mp hc),
    List.reverse_reverse]

/-- A row whose time has a year of four digits, and whose id is a `bigserial`'s. -/
structure Writable (r : RawEvent) : Prop where
  year : 0 ≤ yearOf (1000 * r.eventTimestamp / day) ∧ yearOf (1000 * r.eventTimestamp / day) ≤ 9999
  serial : 0 < r.id ∧ r.id < 2 ^ 63

/-- **A cursor is read back** as the time and the id of its row. -/
theorem cursorOf_text (layouts : List Char → Option Int) {to_ : Int} {r : RawEvent} (h : Writable r)
    (hto : 1000 * r.eventTimestamp < to_) :
    cursorOf layouts to_ (cursorAfter r) = .ok (1000 * r.eventTimestamp, (r.id : Int)) := by
  have htime := TimeText.parseRfc3339_format h.year
  have hid := TimeText.parseInt_format h.serial.2
  have htrim : trimSpace (cursorAfter r).before = (cursorAfter r).before :=
    trimSpace_plain fun c hc => isSpace_timeChar (TimeText.formatRfc3339Nano_timeChar h.year.1 c hc)
  have htrimId : trimSpace (cursorAfter r).beforeId = (cursorAfter r).beforeId :=
    trimSpace_plain fun c hc => isSpace_timeChar (TimeText.appendInt_timeChar (Int.natCast_nonneg _) 0 c hc)
  -- neither text is empty: an empty one would not be read
  have hne : (cursorAfter r).before ≠ "" := by
    intro hempty
    rw [String.ofList_eq_empty_iff.mp hempty] at htime
    cases htime
  have hneId : (cursorAfter r).beforeId ≠ "" := by
    intro hempty
    rw [String.ofList_eq_empty_iff.mp hempty] at hid
    cases hid
  have hpositive : (0 : Int) < r.id := by exact_mod_cast h.serial.1
  unfold cursorOf
  rw [htrim, htrimId]
  dsimp only
  rw [if_neg hne, if_neg hneId]
  simp only [cursorAfter, String.toList_ofList, TimeText.parse, htime, hid, Option.some_or, Option.filter_some,
    decide_eq_true hpositive, if_true, if_pos hto]

/-! ## §4. The rows after a row. -/

/-- In (timestamp, id) descending order. -/
def Newer (a b : RawEvent) : Prop :=
  b.eventTimestamp < a.eventTimestamp ∨ (b.eventTimestamp = a.eventTimestamp ∧ b.id < a.id)

instance : DecidableRel Newer := fun _ _ => inferInstanceAs (Decidable (_ ∨ _))

/-- The events of the window: its bounds are cut to microseconds. -/
def Timeline.window (q : Timeline) (store : Store) : List RawEvent :=
  store.rawEvents.rows.filter fun r => q.selects r && decide (r.eventTimestamp < timestamptz q.to_)

/-- The rows a cursor asks for: all of the window, or those after a row. -/
def Timeline.read (q : Timeline) (store : Store) : Option RawEvent → List RawEvent
  | none => q.rowsUnder store q.to_ 0
  | some r => q.rowsUnder store (1000 * r.eventTimestamp) r.id

theorem newestFirst_iff {a b : RawEvent} : newestFirst a b = true
    ↔ b.eventTimestamp < a.eventTimestamp ∨ (b.eventTimestamp = a.eventTimestamp ∧ b.id ≤ a.id) := by
  simp [newestFirst]

theorem newestFirst_trans (a b c : RawEvent) (h : newestFirst a b = true) (h' : newestFirst b c = true) :
    newestFirst a c = true := by
  rw [newestFirst_iff] at *
  grind

theorem newestFirst_total (a b : RawEvent) : (newestFirst a b || newestFirst b a) = true := by
  rw [Bool.or_eq_true, newestFirst_iff, newestFirst_iff]
  grind

theorem newer_asymm (a b : RawEvent) (h : Newer a b) : ¬ Newer b a := by
  unfold Newer at *
  grind

/-- The id is the key of `raw_events`. -/
theorem eq_of_id (t : RawEvents) {a b : RawEvent} (ha : a ∈ t.rows) (hb : b ∈ t.rows) (h : a.id = b.id) : a = b := by
  have hids : (t.rows.map RawEvent.id).Nodup :=
    List.pairwise_map.mpr (t.newestFirst.imp fun hlt => Nat.ne_of_gt hlt)
  exact List.inj_on_of_nodup_map hids ha hb h

/-- The rows in order tie nowhere. -/
theorem sorted_newer (t : RawEvents) (p : RawEvent → Bool) :
    ((t.rows.filter p).mergeSort newestFirst).Pairwise Newer := by
  have hsorted := List.pairwise_mergeSort newestFirst_trans newestFirst_total (t.rows.filter p)
  have hids : ((t.rows.filter p).mergeSort newestFirst).Pairwise fun a b => a.id ≠ b.id := by
    have hfiltered : (t.rows.filter p).Pairwise fun a b => a.id ≠ b.id :=
      (t.newestFirst.imp fun hlt => Nat.ne_of_gt hlt).filter p
    refine ((List.mergeSort_perm _ _).pairwise_iff ?_).mpr hfiltered
    intro a b hne
    exact hne.symm
  refine (hsorted.and hids).imp fun h => ?_
  obtain ⟨hle, hne⟩ := h
  rw [newestFirst_iff] at hle
  obtain hlt | ⟨htime, hid⟩ := hle
  · exact .inl hlt
  · exact .inr ⟨htime, by omega⟩

/-- A cut time is the time, where it is a row's. -/
theorem timestamptz_row (t : Instant) : timestamptz (1000 * t) = t :=
  Int.mul_ediv_cancel_left t (by decide)

/-- A row before the cut end of the window is before its end. -/
theorem lt_of_lt_timestamptz {t to_ : Int} (h : t < timestamptz to_) : 1000 * t < to_ := by
  have h' : t < to_ / 1000 := h
  omega

/-- The rows under no id are the rows before the time. -/
theorem under_zero (before : Instant) (r : RawEvent) : under before 0 r = decide (r.eventTimestamp < before) := by
  have hid : ¬ (r.id : Int) < 0 := by omega
  unfold under
  by_cases hlt : r.eventTimestamp < before
  · simp [hlt, hlt.le]
  · simp [hlt, hid]

/-- The rows under a row's time and id are those after it. -/
theorem under_row (r x : RawEvent) : under r.eventTimestamp r.id x = decide (Newer r x) := by
  unfold under Newer
  rw [Bool.eq_iff_iff]
  simp only [Bool.and_eq_true, decide_eq_true_eq, Nat.cast_lt]
  grind

/-- **A read after a row answers the rows after it.** -/
theorem read_continues (q : Timeline) (store : Store) :
    Continues Newer (q.read store) ((q.window store).mergeSort newestFirst) where
  sorted := sorted_newer _ _
  asymm := newer_asymm
  first := by
    show q.rowsUnder store q.to_ 0 = _
    unfold Timeline.rowsUnder Timeline.window
    simp only [under_zero]
  after := by
    intro r hr
    have hwindow : r ∈ q.window store := (List.mergeSort_perm _ _).subset hr
    obtain ⟨-, hselected⟩ := List.mem_filter.mp hwindow
    rw [Bool.and_eq_true, decide_eq_true_eq] at hselected
    have hanti : ∀ a ∈ q.window store, ∀ b ∈ q.window store, newestFirst a b → newestFirst b a → a = b := by
      intro a ha b hb hab hba
      rw [newestFirst_iff] at hab hba
      exact eq_of_id store.rawEvents (List.mem_filter.mp ha).1 (List.mem_filter.mp hb).1 (by grind)
    rw [← mergeSort_filter newestFirst_trans newestFirst_total hanti]
    show q.rowsUnder store (1000 * r.eventTimestamp) r.id = _
    unfold Timeline.rowsUnder Timeline.window
    rw [List.filter_filter, timestamptz_row]
    congr 2
    funext x
    rw [under_row]
    -- a row after one of the window is before the window's end
    by_cases hnewer : Newer r x
    · have hbefore : x.eventTimestamp < timestamptz q.to_ := by
        unfold Newer at hnewer
        grind
      simp [hnewer, hbefore]
    · simp [hnewer]

/-! ## §5. Page by page. -/

/-- A cursor as text. -/
def cursorText : Option RawEvent → Cursor
  | none => {}
  | some r => cursorAfter r

/-- An event as the page shows it. -/
def asEvent (r : RawEvent) : TraceEvent := { row := r }

section
variable (layouts : List Char → Option Int) (q : Timeline) (store : Store)

/-- One page: as many rows after the cursor as the limit says, and whether there are more. -/
theorem visitorTimeline_page (asked : Int) {cursor : Option RawEvent}
    (hcursor : ∀ r, cursor = some r → Writable r ∧ 1000 * r.eventTimestamp < q.to_) :
    ∃ page, visitorTimeline layouts q store asked (cursorText cursor) = .ok page
      ∧ page.events = ((q.read store cursor).take (pageLimit asked)).map asEvent
      ∧ page.hasMore = decide (pageLimit asked < (q.read store cursor).length)
      ∧ (page.hasMore = true →
          page.next = cursorText ((q.read store cursor).take (pageLimit asked)).getLast?) := by
  -- the cursor's text is the cursor
  obtain ⟨before, beforeId, hof, hrows⟩ : ∃ before beforeId,
      cursorOf layouts q.to_ (cursorText cursor) = .ok (before, beforeId)
        ∧ q.rowsUnder store before beforeId = q.read store cursor := by
    cases cursor with
    | none => exact ⟨q.to_, 0, rfl, rfl⟩
    | some r =>
      obtain ⟨hwritable, hto⟩ := hcursor r rfl
      exact ⟨_, _, cursorOf_text layouts hwritable hto, rfl⟩
  unfold visitorTimeline traceEvents
  rw [hof]
  dsimp only [bind, Except.bind, pure, Except.pure]
  rw [hrows]
  generalize q.read store cursor = rows
  generalize pageLimit asked = limit
  have hmore : limit < ((rows.take (limit + 1)).map fun r => ({ row := r } : TraceEvent)).length
      ↔ limit < rows.length := by
    rw [List.length_map, List.length_take]
    omega
  have hevents : (if limit < rows.length then
      ((rows.take (limit + 1)).map fun r => ({ row := r } : TraceEvent)).take limit
      else (rows.take (limit + 1)).map fun r => { row := r }) = (rows.take limit).map asEvent := by
    split
    · -- the one row more is left out
      rw [← List.map_take, List.take_take, min_eq_left (Nat.le_succ limit)]
      rfl
    next h =>
      rw [List.take_of_length_le (by omega : rows.length ≤ limit + 1), List.take_of_length_le (not_lt.mp h)]
      rfl
  simp only [hmore, decide_eq_true_eq, hevents]
  refine ⟨_, rfl, rfl, rfl, ?_⟩
  intro h
  dsimp only at h ⊢
  rw [if_pos (of_decide_eq_true h), List.getLast?_map]
  cases (rows.take limit).getLast? with
  | none => rfl
  | some r => rfl

/-- What the window's rows have to be for their cursors to be read back. -/
def Timeline.AllWritable : Prop := ∀ r ∈ q.window store, Writable r

/-- **A reader of pages reads the rows that a reader of cursors reads**: the texts in
between lose nothing. -/
theorem readTimeline_eq (hwritable : q.AllWritable store) (asked : Int) :
    ∀ (n : Nat) (cursor : Option RawEvent), (∀ r, cursor = some r → r ∈ q.window store) →
      readTimeline layouts q store asked n (cursorText cursor)
        = (pagesFrom (q.read store) (pageLimit asked) n cursor).map (List.map asEvent) := by
  intro n
  induction n with
  | zero => exact fun _ _ => rfl
  | succ n ih =>
    intro cursor hcursor
    have hbefore : ∀ r, cursor = some r → Writable r ∧ 1000 * r.eventTimestamp < q.to_ := by
      intro r hr
      have hmem := hcursor r hr
      obtain ⟨-, hselected⟩ := List.mem_filter.mp hmem
      rw [Bool.and_eq_true, decide_eq_true_eq] at hselected
      exact ⟨hwritable r hmem, lt_of_lt_timestamptz hselected.2⟩
    obtain ⟨page, hpage, hevents, hmore, hnext⟩ := visitorTimeline_page layouts q store asked hbefore
    -- the rows of the page are rows of the window
    have hcontinues := read_continues q store
    have hsub : ∀ r ∈ q.read store cursor, r ∈ q.window store := by
      intro r hr
      cases cursor with
      | none =>
        rw [hcontinues.first] at hr
        exact (List.mergeSort_perm _ _).subset hr
      | some r₀ =>
        have hr₀ := (List.mergeSort_perm (q.window store) newestFirst).symm.subset (hcursor r₀ rfl)
        rw [hcontinues.after r₀ hr₀] at hr
        exact (List.mergeSort_perm _ _).subset (List.mem_filter.mp hr).1
    unfold readTimeline pagesFrom
    rw [hpage]
    dsimp only
    by_cases h : pageLimit asked < (q.read store cursor).length
    · rw [hmore, decide_eq_true h] at hnext
      rw [hmore, decide_eq_true h, if_pos rfl, if_pos h, hnext rfl, hevents, ih]
      · rw [Option.map_map, Option.map_map]
        congr 1
        funext rows
        simp
      · intro r hr
        exact hsub r (List.mem_of_mem_take (List.mem_of_getLast? hr))
    · rw [hmore, decide_eq_false h, if_neg Bool.false_ne_true, if_neg h, hevents]
      rfl

/-- **Page by page the reader gets the window's rows in order**, and comes to an end. -/
theorem readTimeline_exact (hwritable : q.AllWritable store) {asked : Int} (hasked : 1 ≤ asked ∧ asked ≤ 500)
    {n : Nat} (hn : (q.window store).length < n) :
    readTimeline layouts q store asked n {}
      = some (((q.window store).mergeSort newestFirst).map asEvent) := by
  have hlimit : 0 < pageLimit asked := by
    rw [pageLimit, if_neg (by omega)]
    omega
  have hcursors := readTimeline_eq layouts q store hwritable asked n none (fun _ h => by cases h)
  have hpages := pagesFrom_exact (read_continues q store) hlimit (n := n) (by rwa [List.length_mergeSort])
  rw [hpages] at hcursors
  exact hcursors

/-- **Paging is exact**: whatever the limit, the pages end, and hold each event of the
window once, in (timestamp, id) descending order. -/
theorem timeline_pages (hwritable : q.AllWritable store) {asked : Int} (hasked : 1 ≤ asked ∧ asked ≤ 500) :
    ∃ events, readTimeline layouts q store asked ((q.window store).length + 1) {} = some events
      ∧ (events.map TraceEvent.row).Perm (q.window store)
      ∧ (events.map TraceEvent.row).Pairwise Newer := by
  refine ⟨_, readTimeline_exact layouts q store hwritable hasked (Nat.lt_succ_self _), ?_, ?_⟩
  all_goals
    rw [List.map_map, show TraceEvent.row ∘ asEvent = id from rfl, List.map_id]
  · exact List.mergeSort_perm _ _
  · exact sorted_newer _ _

/-- A window of whole microseconds is not cut. -/
theorem mem_window_of_micro {from_ to_ : Instant} (hfrom : q.from_ = 1000 * from_) (hto : q.to_ = 1000 * to_)
    (r : RawEvent) : r ∈ q.window store ↔ r ∈ store.rawEvents.rows ∧ r.siteId = q.siteId
      ∧ r.visitorId ∈ q.visitorIds ∧ r.environment = q.environment
      ∧ from_ ≤ r.eventTimestamp ∧ r.eventTimestamp < to_ := by
  unfold Timeline.window Timeline.selects
  rw [List.mem_filter, hfrom, hto, timestamptz_row, timestamptz_row]
  simp only [Bool.and_eq_true, decide_eq_true_eq, and_assoc]

end

namespace Sample

/-- Two events of one visitor. -/
def twoEvents (first second : Instant) : RawEvents :=
  (RawEvents.empty.insert (event 0 "v" "s" first).row (by simp [RawEvents.Holds, RawEvents.empty])).insert
    (event 1 "v" "s" second).row (by simp [RawEvents.Holds, RawEvents.insert, RawEvents.empty, event, RawEvent.uniqueKey])

def storeOf (rawEvents : RawEvents) : Store :=
  { Store.initial ⟨∅, ∅, ∅, [], [], none, .ok Policy.default⟩ with rawEvents := rawEvents }

/-- The visitor's events up to a time. -/
def timelineTo (to_ : Int) : Timeline where
  siteId := ⟨2⟩
  environment := "production"
  visitorIds := ["v"]
  from_ := 0
  to_ := to_

theorem twoEvents_rows (first second : Instant) : ∀ r ∈ (twoEvents first second).rows,
    (r.id = 1 ∧ r.eventTimestamp = first) ∨ (r.id = 2 ∧ r.eventTimestamp = second) := by
  intro r hr
  obtain rfl | hmem := List.mem_cons.mp hr
  · exact .inr ⟨rfl, rfl⟩
  · obtain rfl := List.mem_singleton.mp hmem
    exact .inl ⟨rfl, rfl⟩

theorem timeline_pages_tied :
    ∃ events, readTimeline (fun _ => none) (timelineTo 9000) (storeOf (twoEvents 5 5)) 1
        (((timelineTo 9000).window (storeOf (twoEvents 5 5))).length + 1) {} = some events
      ∧ (events.map TraceEvent.row).Perm ((timelineTo 9000).window (storeOf (twoEvents 5 5)))
      ∧ (events.map TraceEvent.row).Pairwise Newer := by
  refine timeline_pages (fun _ => none) _ _ ?_ (by decide)
  intro r hr
  obtain ⟨hid, htime⟩ | ⟨hid, htime⟩ := twoEvents_rows 5 5 r (List.mem_filter.mp hr).1
  all_goals exact ⟨by rw [htime]; decide, by rw [hid]; decide⟩

/-- The first microsecond of the year 10000. -/
abbrev year10000 : Instant := 253402300800000000

/-- Its text is not read. -/
theorem cursorOf_year10000 {to_ : Int} {r : RawEvent} (h : r.eventTimestamp = year10000) :
    cursorOf (fun _ => none) to_ (cursorAfter r) = .error "before must be an RFC3339 timestamp" := by
  have htext : TimeText.formatRfc3339Nano (1000 * r.eventTimestamp) = "10000-01-01T00:00:00Z".toList := by
    rw [h]
    decide
  have hbefore : (cursorAfter r).before = "10000-01-01T00:00:00Z" := by
    show String.ofList (TimeText.formatRfc3339Nano (1000 * r.eventTimestamp)) = _
    rw [htext]
    rfl
  have htrim : trimSpace "10000-01-01T00:00:00Z" = "10000-01-01T00:00:00Z" := by decide
  have hparse : TimeText.parse (fun _ => none) "10000-01-01T00:00:00Z".toList = none := by decide
  unfold cursorOf
  rw [hbefore, htrim]
  dsimp only
  rw [if_neg (by decide), hparse]

/-- A page of two rows of the year 10000 has a cursor nobody reads. -/
theorem never_read (n : Nat) : readTimeline (fun _ => none) (timelineTo (253402300801 * second))
    (storeOf (twoEvents year10000 year10000)) 1 n {} = none := by
  generalize hq : timelineTo (253402300801 * second) = q
  generalize hstore : storeOf (twoEvents year10000 year10000) = store
  have hlength : (q.read store none).length = 2 := by
    rw [(read_continues q store).first, List.length_mergeSort, ← hq, ← hstore]
    decide
  have hrow : ∀ r ∈ q.read store none, r.eventTimestamp = year10000 := by
    intro r hr
    rw [(read_continues q store).first, ← hq, ← hstore] at hr
    have hmem := (List.mem_filter.mp ((List.mergeSort_perm _ _).subset hr)).1
    obtain ⟨-, htime⟩ | ⟨-, htime⟩ := twoEvents_rows year10000 year10000 r hmem
    all_goals exact htime
  obtain ⟨page, hpage, -, hmore, hnext⟩ :=
    @visitorTimeline_page (fun _ => none) q store 1 none (fun _ h => by cases h)
  obtain ⟨r, hlast, hr⟩ : ∃ r, ((q.read store none).take (pageLimit 1)).getLast? = some r
      ∧ r.eventTimestamp = year10000 := by
    obtain ⟨r, r', hread⟩ := List.length_eq_two.mp hlength
    refine ⟨r, ?_, hrow r (by rw [hread]; exact List.mem_cons_self)⟩
    rw [hread]
    rfl
  rw [hlength] at hmore
  rw [hlast] at hnext
  cases n with
  | zero => rfl
  | succ n =>
    unfold readTimeline
    rw [show ({} : Cursor) = cursorText none from rfl, hpage]
    dsimp only
    rw [hmore, if_pos (by decide), hnext hmore]
    cases n with
    | zero => rfl
    | succ n =>
      unfold readTimeline visitorTimeline
      rw [show cursorText (some r) = cursorAfter r from rfl, cursorOf_year10000 hr]
      rfl

/-- The window up to a nanosecond after an event is read without it, and two events of
the year 10000 are never read to the end. -/
theorem timeline_skips_nanosecond :
    (readTimeline (fun _ => none) (timelineTo 5001) (storeOf (twoEvents 5 5)) 1 1 {} = some []
      ∧ ∃ r ∈ (storeOf (twoEvents 5 5)).rawEvents.rows, (timelineTo 5001).selects r = true
        ∧ 0 ≤ 1000 * r.eventTimestamp ∧ 1000 * r.eventTimestamp < 5001)
    ∧ ∀ n, readTimeline (fun _ => none) (timelineTo (253402300801 * second))
        (storeOf (twoEvents year10000 year10000)) 1 n {} = none := by
  have hempty : (timelineTo 5001).window (storeOf (twoEvents 5 5)) = [] := by
    refine List.filter_eq_nil_iff.mpr fun r hr => ?_
    have hlate : ¬ r.eventTimestamp < timestamptz (timelineTo 5001).to_ := by
      obtain ⟨-, htime⟩ | ⟨-, htime⟩ := twoEvents_rows 5 5 r hr
      all_goals
        rw [htime]
        decide
    simp [hlate]
  refine ⟨⟨?_, ?_⟩, never_read⟩
  · rw [readTimeline_exact (fun _ => none) _ _ (by rw [Timeline.AllWritable, hempty]; simp) (by decide) (n := 1)
      (by rw [hempty]; decide), hempty, List.mergeSort_nil]
    rfl
  · refine ⟨_, List.mem_cons_self, ?_, ?_, ?_⟩
    · decide
    · decide
    · decide

end Sample

end Momento.Http.Trace
