/-
  Momento.Reports.SharedReads

  **IDENTICAL READS THAT RUN AT ONCE ARE ANSWERED BY ONE.**  The first request with
  a key leads: it runs its handler and records the response.  A request that arrives
  with the key while the entry is there waits for it (`flightGroup.do`).

      enter    — the part under the mutex: join the entry, or make one and lead
      query    — one query of a handler, on the database as it is then
      write    — the leader's handler returned; the leader has its response
      settle, remove, close
               — the deferred function: `ok` is set, the entry deleted, `done` closed
      receive  — a waiting request goes on once `done` is closed

  Requests, their cancellations and the database's commits interleave in any order.
  Every query is remembered with the number of commits before it, and every request
  with the number when it arrived: an answer is fresh when none of its queries has a
  smaller number than its request.
-/
import Mathlib.Logic.Function.Basic
import Momento.Foundation.Runs

namespace Momento.SharedReads

open Foundation

/-! ## §1. Requests and reads. -/

/-- What is sent. -/
structure Response where
  status : Nat
  header : List (String × List String)
  body : String
  deriving DecidableEq

/-- The copy a waiting request gets. -/
def Response.shared (r : Response) : Response :=
  { r with header := r.header.filter (·.1 ≠ "X-Momento-Shared-Read") ++ [("X-Momento-Shared-Read", ["1"])] }

/-- A query's view of the database, and how many commits came before. -/
structure Read (δ : Type) where
  commits : Nat
  state : δ

/-- A read under way; its leader is the request it is kept under. -/
structure Flight (δ : Type) where
  waiters : Nat
  reads : List (Read δ)
  /-- The recorder's: the handler panicked. -/
  failed : Bool
  /-- Set before `done` is closed. -/
  ok : Option Bool
  done : Bool

/-- Where a request is. -/
inductive Place (δ : Type) where
  | arrived
  | leading
  | served
  | settled
  | removed
  | waiting (leader : Nat)
  /-- A waiting request that serves itself. -/
  | serving (reads : List (Read δ))
  | over

/-- A request, where it is, and what was committed when it came. -/
structure Waiting (κ δ : Type) where
  key : κ
  arrivedAt : Nat
  place : Place δ

/-- A response handed to a request, with what it was computed from. -/
structure Answer (δ : Type) where
  request : Nat
  arrivedAt : Nat
  reads : List (Read δ)
  response : Response

/-- The flight group, the requests around it and the database. -/
structure Traffic (κ δ : Type) where
  db : δ
  commits : Nat
  calls : κ → Option Nat
  flights : Nat → Option (Flight δ)
  requests : Nat → Option (Waiting κ δ)
  cancelled : Nat → Bool
  answers : List (Answer δ)

/-- What may happen, in any order. -/
inductive Event (κ δ : Type) where
  | commit (db : δ)
  | arrive (x : Nat) (key : κ)
  | enter (x : Nat)
  | query (x : Nat)
  | write (x : Nat)
  | panic (x : Nat)
  | settle (x : Nat)
  | remove (x : Nat)
  | close (x : Nat)
  | receive (x : Nat)
  | leave (x : Nat)
  | finish (x : Nat)
  | cancel (x : Nat)

/-! ## §2. Steps. -/

section
variable {κ δ : Type}

namespace Traffic
variable (w : Traffic κ δ)

/-- Nobody has asked. -/
def initial (db : δ) : Traffic κ δ :=
  ⟨db, 0, fun _ => none, fun _ => none, fun _ => none, fun _ => false, []⟩

/-- A read of what is committed now. -/
def now : Read δ := ⟨w.commits, w.db⟩

/-- A request goes on. -/
def setPlace (x : Nat) (q : Waiting κ δ) (place : Place δ) : Traffic κ δ :=
  { w with requests := Function.update w.requests x (some { q with place := place }) }

/-- A flight goes on. -/
def setFlight (f : Nat) (flight : Flight δ) : Traffic κ δ :=
  { w with flights := Function.update w.flights f (some flight) }

/-- A request is answered. -/
def answer (x : Nat) (q : Waiting κ δ) (reads : List (Read δ)) (response : Response) : Traffic κ δ :=
  { w with answers := w.answers ++ [⟨x, q.arrivedAt, reads, response⟩] }

/-- A step of a request that is there. -/
def onRequest (x : Nat) (step : Waiting κ δ → Traffic κ δ) : Traffic κ δ :=
  match w.requests x with
  | some q => step q
  | none => w

/-- A step of a flight that is there. -/
def onFlight (f : Nat) (step : Flight δ → Traffic κ δ) : Traffic κ δ :=
  match w.flights f with
  | some flight => step flight
  | none => w

/-- Under the mutex. -/
def enter [DecidableEq κ] (x : Nat) (q : Waiting κ δ) : Traffic κ δ :=
  match w.calls q.key with
  | some f => w.onFlight f fun flight =>
    (w.setFlight f { flight with waiters := flight.waiters + 1 }).setPlace x q (.waiting f)
  | none =>
    { w with calls := Function.update w.calls q.key (some x) }.setFlight x ⟨0, [], false, none, false⟩
      |>.setPlace x q .leading

/-- **A step**, given what each request's handler answers to what its queries see. -/
def step [DecidableEq κ] (handler : Nat → List δ → Response) (w : Traffic κ δ) : Event κ δ → Traffic κ δ
  | .commit db => { w with db := db, commits := w.commits + 1 }
  | .arrive x key =>
    match w.requests x with
    | some _ => w
    | none => { w with requests := Function.update w.requests x (some ⟨key, w.commits, .arrived⟩) }
  | .enter x => w.onRequest x fun q =>
    match q.place with
    | .arrived => w.enter x q
    | _ => w
  | .query x => w.onRequest x fun q =>
    match q.place with
    | .leading => w.onFlight x fun flight => w.setFlight x { flight with reads := flight.reads ++ [w.now] }
    | .serving reads => w.setPlace x q (.serving (reads ++ [w.now]))
    | _ => w
  | .write x => w.onRequest x fun q =>
    match q.place with
    | .leading => w.onFlight x fun flight =>
      (w.answer x q flight.reads (handler x (flight.reads.map Read.state))).setPlace x q .served
    | _ => w
  | .panic x => w.onRequest x fun q =>
    match q.place with
    | .leading => w.onFlight x fun flight => (w.setFlight x { flight with failed := true }).setPlace x q .served
    | .serving _ => w.setPlace x q .over
    | _ => w
  | .settle x => w.onRequest x fun q =>
    match q.place with
    | .served => w.onFlight x fun flight =>
      (w.setFlight x { flight with ok := some (!w.cancelled x && !flight.failed) }).setPlace x q .settled
    | _ => w
  | .remove x => w.onRequest x fun q =>
    match q.place with
    | .settled => { w with calls := Function.update w.calls q.key none }.setPlace x q .removed
    | _ => w
  | .close x => w.onRequest x fun q =>
    match q.place with
    | .removed => w.onFlight x fun flight => (w.setFlight x { flight with done := true }).setPlace x q .over
    | _ => w
  | .receive x => w.onRequest x fun q =>
    match q.place with
    | .waiting f => w.onFlight f fun flight =>
      match flight.done, flight.ok with
      | true, some true =>
        (w.answer x q flight.reads (handler f (flight.reads.map Read.state)).shared).setPlace x q .over
      | true, some false => w.setPlace x q (.serving [])
      | _, _ => w
    | _ => w
  | .leave x => w.onRequest x fun q =>
    match q.place with
    | .waiting _ => if w.cancelled x then w.setPlace x q .over else w
    | _ => w
  | .finish x => w.onRequest x fun q =>
    match q.place with
    | .serving reads => (w.answer x q reads (handler x (reads.map Read.state))).setPlace x q .over
    | _ => w
  | .cancel x => { w with cancelled := Function.update w.cancelled x true }

end Traffic

/-! ## §3. What should hold. -/

/-- None of the reads is older than the moment. -/
def NoOlder (arrivedAt : Nat) (reads : List (Read δ)) : Prop := ∀ r ∈ reads, arrivedAt ≤ r.commits

/-- **Every response was computed after its request arrived.** -/
def Traffic.Fresh (w : Traffic κ δ) : Prop := ∀ a ∈ w.answers, NoOlder a.arrivedAt a.reads

instance (w : Traffic κ δ) : Decidable w.Fresh :=
  inferInstanceAs (Decidable (∀ a ∈ w.answers, ∀ r ∈ a.reads, a.arrivedAt ≤ r.commits))

/-- The read answers nobody else: its leader is gone or its handler panicked. -/
def Flight.Doomed (flight : Flight δ) (cancelled : Bool) : Prop :=
  match flight.ok with
  | some ok => ok = false
  | none => cancelled = true ∨ flight.failed = true

/-- **Nobody joins a read that has looked already**: when a request joins, every query
the read has made so far came after the request, or there was no commit in between;
or the read answers nobody else. -/
def Traffic.JoinsFresh (w : Traffic κ δ) : Event κ δ → Prop
  | .enter x => ∀ q f flight, w.requests x = some q → q.place = .arrived → w.calls q.key = some f →
      w.flights f = some flight → flight.Doomed (w.cancelled f) ∨ NoOlder q.arrivedAt flight.reads
  | _ => True

/-! ## §4. The invariant. -/

/-- The entry of such a leader is still there. -/
def Place.Running : Place δ → Prop
  | .leading => True
  | .served => True
  | .settled => True
  | _ => False

/-- What a read says where its leader is. -/
def Flight.At (flight : Flight δ) : Place δ → Prop
  | .leading => flight.ok = none
  | .served => flight.ok = none
  | .settled => flight.ok.isSome
  | .removed => flight.ok.isSome
  | .over => flight.ok.isSome
  | _ => False

/-- A request that arrived then may be answered by the read. -/
def Flight.Answers (flight : Flight δ) (cancelled : Bool) (arrivedAt : Nat) : Prop :=
  flight.Doomed cancelled ∨ NoOlder arrivedAt flight.reads

/-- **The invariant.** -/
structure Traffic.Inv (w : Traffic κ δ) : Prop where
  arrived : ∀ x q, w.requests x = some q → q.arrivedAt ≤ w.commits
  led : ∀ f flight, w.flights f = some flight →
    ∃ q, w.requests f = some q ∧ flight.At q.place ∧ NoOlder q.arrivedAt flight.reads
  calls : ∀ key f, w.calls key = some f →
    ∃ q flight, w.requests f = some q ∧ w.flights f = some flight ∧ q.key = key ∧ q.place.Running
  waiting : ∀ x q f, w.requests x = some q → q.place = .waiting f →
    ∃ flight, w.flights f = some flight ∧ flight.Answers (w.cancelled f) q.arrivedAt
  serving : ∀ x q reads, w.requests x = some q → q.place = .serving reads → NoOlder q.arrivedAt reads
  fresh : w.Fresh

section
variable {w : Traffic κ δ} {x : Nat} {q : Waiting κ δ}

theorem noOlder_append {a : Nat} {reads : List (Read δ)} {r : Read δ} (h : NoOlder a reads) (hr : a ≤ r.commits) :
    NoOlder a (reads ++ [r]) := by
  intro r' hr'
  rcases List.mem_append.mp hr' with hmem | hmem
  · exact h r' hmem
  · obtain rfl := List.mem_singleton.mp hmem
    exact hr

/-- Whose request it is after one changed its place. -/
theorem request_of_setPlace {place : Place δ} {y : Nat} {q' : Waiting κ δ}
    (h : (w.setPlace x q place).requests y = some q') :
    y = x ∧ q' = { q with place := place } ∨ y ≠ x ∧ w.requests y = some q' := by
  by_cases hy : y = x
  · subst hy
    exact .inl ⟨rfl, (Option.some.inj ((Function.update_self y _ w.requests).symm.trans h)).symm⟩
  · exact .inr ⟨hy, (Function.update_of_ne hy _ w.requests).symm.trans h⟩

theorem requests_self (place : Place δ) : (w.setPlace x q place).requests x = some { q with place := place } :=
  Function.update_self x _ w.requests

theorem requests_of_ne (place : Place δ) {y : Nat} (hy : y ≠ x) : (w.setPlace x q place).requests y = w.requests y :=
  Function.update_of_ne hy _ w.requests

theorem flight_of_setFlight {f f' : Nat} {flight flight' : Flight δ} (h : (w.setFlight f flight).flights f' = some flight') :
    f' = f ∧ flight' = flight ∨ f' ≠ f ∧ w.flights f' = some flight' := by
  by_cases hf : f' = f
  · subst hf
    exact .inl ⟨rfl, (Option.some.inj ((Function.update_self f' _ w.flights).symm.trans h)).symm⟩
  · exact .inr ⟨hf, (Function.update_of_ne hf _ w.flights).symm.trans h⟩

theorem flights_self (f : Nat) (flight : Flight δ) : (w.setFlight f flight).flights f = some flight :=
  Function.update_self f _ w.flights

theorem flights_of_ne {f f' : Nat} (flight : Flight δ) (hf : f' ≠ f) : (w.setFlight f flight).flights f' = w.flights f' :=
  Function.update_of_ne hf _ w.flights

/-- A request that leads nothing yet has no read. -/
theorem Traffic.Inv.no_flight (h : w.Inv) (hq : w.requests x = some q)
    (hplace : ∀ flight : Flight δ, ¬flight.At q.place) : w.flights x = none := by
  cases hflight : w.flights x with
  | none => rfl
  | some flight =>
    obtain ⟨q', hq', hat, -⟩ := h.led x flight hflight
    obtain rfl := Option.some.inj (hq.symm.trans hq')
    exact absurd hat (hplace flight)

/-- **A leader's step**: its read and its place change, and of the entries at most its
own. -/
theorem Traffic.Inv.leads (h : w.Inv) (hq : w.requests x = some q) (calls : κ → Option Nat) (flight : Flight δ)
    (place : Place δ) (hat : flight.At place) (hreads : NoOlder q.arrivedAt flight.reads)
    (hkept : ∀ before, w.flights x = some before → ∀ a ≤ w.commits, before.Answers (w.cancelled x) a →
      flight.Answers (w.cancelled x) a)
    (hcalls : ∀ key f, calls key = some f →
      w.calls key = some f ∧ f ≠ x ∨ f = x ∧ q.key = key ∧ place.Running) :
    (({ w with calls := calls }.setFlight x flight).setPlace x q place).Inv where
  arrived y q' hq' := by
    rcases request_of_setPlace hq' with ⟨rfl, rfl⟩ | ⟨-, hbefore⟩
    · exact h.arrived y q hq
    · exact h.arrived y q' hbefore
  led f flight' hflight' := by
    rcases flight_of_setFlight hflight' with ⟨rfl, rfl⟩ | ⟨hf, hbefore⟩
    · exact ⟨_, requests_self _, hat, hreads⟩
    · obtain ⟨q', hq', hrest⟩ := h.led f flight' hbefore
      exact ⟨q', (requests_of_ne _ hf).trans hq', hrest⟩
  calls key f hcall := by
    rcases hcalls key f hcall with ⟨hbefore, hf⟩ | ⟨rfl, hkey, hrunning⟩
    · obtain ⟨q', flight', hq', hflight', hrest⟩ := h.calls key f hbefore
      exact ⟨q', flight', (requests_of_ne _ hf).trans hq', (flights_of_ne _ hf).trans hflight', hrest⟩
    · exact ⟨_, flight, requests_self _, flights_self f flight, hkey, hrunning⟩
  waiting y q' f hq' hplace := by
    rcases request_of_setPlace hq' with ⟨rfl, rfl⟩ | ⟨-, hbefore⟩
    · rw [show place = .waiting f from hplace] at hat
      exact hat.elim
    · obtain ⟨flight', hflight', hanswers⟩ := h.waiting y q' f hbefore hplace
      by_cases hf : f = x
      · subst hf
        exact ⟨flight, flights_self f flight, hkept flight' hflight' _ (h.arrived y q' hbefore) hanswers⟩
      · exact ⟨flight', (flights_of_ne _ hf).trans hflight', hanswers⟩
  serving y q' reads hq' hplace := by
    rcases request_of_setPlace hq' with ⟨rfl, rfl⟩ | ⟨-, hbefore⟩
    · rw [show place = .serving reads from hplace] at hat
      exact hat.elim
    · exact h.serving y q' reads hbefore hplace
  fresh := h.fresh

/-- **A step of a request that leads nothing.** -/
theorem Traffic.Inv.follows (h : w.Inv) (hq : w.requests x = some q) (hnone : w.flights x = none) {place : Place δ}
    (hwaiting : ∀ f, place = .waiting f →
      ∃ flight, w.flights f = some flight ∧ flight.Answers (w.cancelled f) q.arrivedAt)
    (hserving : ∀ reads, place = .serving reads → NoOlder q.arrivedAt reads) : (w.setPlace x q place).Inv := by
  have hother : ∀ f flight, w.flights f = some flight → f ≠ x := by
    rintro f flight hflight rfl
    exact nomatch hnone.symm.trans hflight
  constructor
  · intro y q' hq'
    rcases request_of_setPlace hq' with ⟨rfl, rfl⟩ | ⟨-, hbefore⟩
    · exact h.arrived y q hq
    · exact h.arrived y q' hbefore
  · intro f flight hflight
    obtain ⟨q', hq', hrest⟩ := h.led f flight hflight
    exact ⟨q', (requests_of_ne _ (hother f flight hflight)).trans hq', hrest⟩
  · intro key f hcall
    obtain ⟨q', flight, hq', hflight, hrest⟩ := h.calls key f hcall
    exact ⟨q', flight, (requests_of_ne _ (hother f flight hflight)).trans hq', hflight, hrest⟩
  · intro y q' f hq' hplace
    rcases request_of_setPlace hq' with ⟨rfl, rfl⟩ | ⟨-, hbefore⟩
    · exact hwaiting f hplace
    · exact h.waiting y q' f hbefore hplace
  · intro y q' reads hq' hplace
    rcases request_of_setPlace hq' with ⟨rfl, rfl⟩ | ⟨-, hbefore⟩
    · exact hserving reads hplace
    · exact h.serving y q' reads hbefore hplace
  · exact h.fresh

/-- One more waits for the read. -/
theorem Traffic.Inv.waiters (h : w.Inv) {f : Nat} {flight : Flight δ} (hflight : w.flights f = some flight)
    (waiters : Nat) : (w.setFlight f { flight with waiters := waiters }).Inv where
  arrived := h.arrived
  led f' flight' hflight' := by
    rcases flight_of_setFlight hflight' with ⟨rfl, rfl⟩ | ⟨-, hbefore⟩
    · exact h.led f' flight hflight
    · exact h.led f' flight' hbefore
  calls key f' hcall := by
    obtain ⟨q', flight', hq', hflight', hrest⟩ := h.calls key f' hcall
    by_cases hf : f' = f
    · subst hf
      exact ⟨q', _, hq', flights_self f' _, hrest⟩
    · exact ⟨q', flight', hq', (flights_of_ne _ hf).trans hflight', hrest⟩
  waiting y q' f' hq' hplace := by
    obtain ⟨flight', hflight', hanswers⟩ := h.waiting y q' f' hq' hplace
    by_cases hf : f' = f
    · subst hf
      obtain rfl := Option.some.inj (hflight.symm.trans hflight')
      exact ⟨_, flights_self f' _, hanswers⟩
    · exact ⟨flight', (flights_of_ne _ hf).trans hflight', hanswers⟩
  serving := h.serving
  fresh := h.fresh

/-- A fresh answer is handed over. -/
theorem Traffic.Inv.answer (h : w.Inv) {reads : List (Read δ)} (hreads : NoOlder q.arrivedAt reads)
    (response : Response) : (w.answer x q reads response).Inv where
  arrived := h.arrived
  led := h.led
  calls := h.calls
  waiting := h.waiting
  serving := h.serving
  fresh a ha := by
    rcases List.mem_append.mp ha with hmem | hmem
    · exact h.fresh a hmem
    · obtain rfl := List.mem_singleton.mp hmem
      exact hreads

/-! ## §5. Every step. -/

/-- What is done for a request that is there is all that is done. -/
theorem Traffic.onRequest_inv {step : Waiting κ δ → Traffic κ δ} (h : w.Inv)
    (hstep : ∀ q, w.requests x = some q → (step q).Inv) : (w.onRequest x step).Inv := by
  unfold onRequest
  split
  next q hq => exact hstep q hq
  next => exact h

/-- A read under way. -/
theorem Traffic.onFlight_inv {f : Nat} {step : Flight δ → Traffic κ δ} (h : w.Inv)
    (hstep : ∀ flight, w.flights f = some flight → (step flight).Inv) : (w.onFlight f step).Inv := by
  unfold onFlight
  split
  next flight hflight => exact hstep flight hflight
  next => exact h

/-- A leader's read, and what is known of it. -/
theorem Traffic.Inv.own (h : w.Inv) (hq : w.requests x = some q) {flight : Flight δ}
    (hflight : w.flights x = some flight) : flight.At q.place ∧ NoOlder q.arrivedAt flight.reads := by
  obtain ⟨q', hq', hrest⟩ := h.led x flight hflight
  obtain rfl := Option.some.inj (hq.symm.trans hq')
  exact hrest

/-- A step of a leader on its own read. -/
theorem Traffic.onOwn_inv {place : Place δ} {step : Flight δ → Traffic κ δ} (h : w.Inv) (hq : w.requests x = some q)
    (hplace : q.place = place)
    (hstep : ∀ flight, w.flights x = some flight → flight.At place → NoOlder q.arrivedAt flight.reads →
      (step flight).Inv) : (w.onFlight x step).Inv := by
  apply Traffic.onFlight_inv h
  intro flight hflight
  obtain ⟨hat, hreads⟩ := h.own hq hflight
  exact hstep flight hflight (hplace ▸ hat) hreads

/-- An entry of a leader is under its own key, and the leader not done. -/
theorem Traffic.Inv.own_call (h : w.Inv) (hq : w.requests x = some q) {key : κ} (hcall : w.calls key = some x) :
    q.key = key ∧ q.place.Running := by
  obtain ⟨q', flight, hq', -, hrest⟩ := h.calls key x hcall
  obtain rfl := Option.some.inj (hq.symm.trans hq')
  exact hrest

/-- A leader's step that leaves the entries. -/
theorem Traffic.Inv.leadsOn (h : w.Inv) (hq : w.requests x = some q) (flight : Flight δ) (place : Place δ)
    (hat : flight.At place) (hreads : NoOlder q.arrivedAt flight.reads)
    (hkept : ∀ before, w.flights x = some before → ∀ a ≤ w.commits, before.Answers (w.cancelled x) a →
      flight.Answers (w.cancelled x) a)
    (hrunning : q.place.Running → place.Running) : ((w.setFlight x flight).setPlace x q place).Inv := by
  apply h.leads hq w.calls flight place hat hreads hkept
  intro key f hkey
  by_cases hf : f = x
  · subst hf
    obtain ⟨hown, hbefore⟩ := h.own_call hq hkey
    exact .inr ⟨rfl, hown, hrunning hbefore⟩
  · exact .inl ⟨hkey, hf⟩

theorem setPlace_self (hq : w.requests x = some q) : w.setPlace x q q.place = w := by
  unfold Traffic.setPlace
  rw [show ({ q with place := q.place } : Waiting κ δ) = q from rfl, ← hq, Function.update_eq_self]

theorem setFlight_self {flight : Flight δ} (hflight : w.flights x = some flight) : w.setFlight x flight = w := by
  unfold Traffic.setFlight
  rw [← hflight, Function.update_eq_self]

/-- A leader goes on, its read as it is. -/
theorem Traffic.Inv.goesOn (h : w.Inv) (hq : w.requests x = some q) {flight : Flight δ}
    (hflight : w.flights x = some flight) {place : Place δ} (hat : flight.At place)
    (hrunning : q.place.Running → place.Running) : (w.setPlace x q place).Inv := by
  have hleads := h.leadsOn hq flight place hat (h.own hq hflight).2
    (fun before hbefore a _ hanswers => Option.some.inj (hflight.symm.trans hbefore) ▸ hanswers) hrunning
  rwa [setFlight_self hflight] at hleads

/-- The leader's next query. -/
theorem Traffic.Inv.query (h : w.Inv) (hq : w.requests x = some q) {flight : Flight δ} (hflight : w.flights x = some flight) :
    (w.setFlight x { flight with reads := flight.reads ++ [w.now] }).Inv := by
  obtain ⟨hat, hreads⟩ := h.own hq hflight
  have hleads := h.leadsOn hq { flight with reads := flight.reads ++ [w.now] } q.place hat
    (noOlder_append hreads (h.arrived x q hq)) ?_ id
  · rwa [show (w.setFlight x { flight with reads := flight.reads ++ [w.now] }).setPlace x q q.place
      = w.setFlight x { flight with reads := flight.reads ++ [w.now] } from setPlace_self hq] at hleads
  · -- the query sees the database as it is now
    intro before hbefore a ha hanswers
    obtain rfl := Option.some.inj (hflight.symm.trans hbefore)
    rcases hanswers with hdoomed | hnoOlder
    · exact .inl hdoomed
    · exact .inr (noOlder_append hnoOlder ha)

/-- Before `ok` is set, a read that is doomed fails. -/
theorem doomed_settled {flight : Flight δ} {cancelled : Bool} (hok : flight.ok = none)
    (h : flight.Doomed cancelled) :
    Flight.Doomed { flight with ok := some (!cancelled && !flight.failed) } cancelled := by
  unfold Flight.Doomed at h
  rw [hok] at h
  show (!cancelled && !flight.failed) = false
  rcases h with hcancelled | hfailed
  · rw [hcancelled]
    rfl
  · rw [hfailed, Bool.and_comm]
    rfl

/-- The deferred function deletes the entry. -/
theorem Traffic.Inv.remove [DecidableEq κ] (h : w.Inv) (hq : w.requests x = some q) (hplace : q.place = .settled) :
    ({ w with calls := Function.update w.calls q.key none }.setPlace x q .removed).Inv := by
  have hcalls : ∀ key f, Function.update w.calls q.key none key = some f → w.calls key = some f ∧ key ≠ q.key := by
    intro key f hkey
    by_cases hk : key = q.key
    · subst hk
      rw [Function.update_self] at hkey
      cases hkey
    · rw [Function.update_of_ne hk] at hkey
      exact ⟨hkey, hk⟩
  cases hflight : w.flights x with
  | none =>
    have hwithout : Traffic.Inv { w with calls := Function.update w.calls q.key none } :=
      { h with calls := fun key f hkey => h.calls key f (hcalls key f hkey).1 }
    exact hwithout.follows hq hflight (fun _ hwaiting => nomatch hwaiting) fun _ hserving => nomatch hserving
  | some flight =>
    obtain ⟨hat, hreads⟩ := h.own hq hflight
    rw [hplace] at hat
    have hleads := h.leads hq (Function.update w.calls q.key none) flight .removed hat hreads
      (fun before hbefore a _ hanswers => Option.some.inj (hflight.symm.trans hbefore) ▸ hanswers) ?_
    · rwa [setFlight_self (w := { w with calls := Function.update w.calls q.key none }) hflight] at hleads
    · intro key f hkey
      obtain ⟨hbefore, hk⟩ := hcalls key f hkey
      refine .inl ⟨hbefore, ?_⟩
      rintro rfl
      exact hk (h.own_call hq hbefore).1.symm

/-- A read that is done answers as it says. -/
theorem noOlder_of_ok {flight : Flight δ} {cancelled : Bool} {a : Nat} (hok : flight.ok = some true)
    (h : flight.Answers cancelled a) : NoOlder a flight.reads := by
  refine h.resolve_left fun hdoomed => ?_
  unfold Flight.Doomed at hdoomed
  rw [hok] at hdoomed
  cases hdoomed

theorem doomed_cancel {flight : Flight δ} {f x : Nat} {cancelled : Nat → Bool} (h : flight.Doomed (cancelled f)) :
    flight.Doomed (Function.update cancelled x true f) := by
  by_cases hf : f = x
  · subst hf
    rw [Function.update_self]
    unfold Flight.Doomed at h ⊢
    split at h
    next => exact h
    next => exact .inl rfl
  · rwa [Function.update_of_ne hf]

/-- A request arrives. -/
theorem Traffic.Inv.arrive (h : w.Inv) (hx : w.requests x = none) (key : κ) :
    Traffic.Inv { w with requests := Function.update w.requests x (some ⟨key, w.commits, .arrived⟩) } := by
  have hother : ∀ y q, w.requests y = some q → y ≠ x := by
    rintro y q hy rfl
    exact nomatch hx.symm.trans hy
  have hcases : ∀ y q, Function.update w.requests x (some ⟨key, w.commits, .arrived⟩) y = some q →
      q = ⟨key, w.commits, .arrived⟩ ∨ w.requests y = some q := by
    intro y q hq
    by_cases hy : y = x
    · subst hy
      exact .inl (Option.some.inj ((Function.update_self y _ w.requests).symm.trans hq)).symm
    · exact .inr ((Function.update_of_ne hy _ w.requests).symm.trans hq)
  constructor
  · intro y q hq
    rcases hcases y q hq with rfl | hbefore
    · exact Nat.le_refl _
    · exact h.arrived y q hbefore
  · intro f flight hflight
    obtain ⟨q, hq, hrest⟩ := h.led f flight hflight
    exact ⟨q, (Function.update_of_ne (hother f q hq) _ _).trans hq, hrest⟩
  · intro key' f hcall
    obtain ⟨q, flight, hq, hrest⟩ := h.calls key' f hcall
    exact ⟨q, flight, (Function.update_of_ne (hother f q hq) _ _).trans hq, hrest⟩
  · intro y q f hq hplace
    rcases hcases y q hq with rfl | hbefore
    · cases hplace
    · exact h.waiting y q f hbefore hplace
  · intro y q reads hq hplace
    rcases hcases y q hq with rfl | hbefore
    · cases hplace
    · exact h.serving y q reads hbefore hplace
  · exact h.fresh

variable [DecidableEq κ] {handler : Nat → List δ → Response}

/-- A request leads or joins. -/
theorem Traffic.Inv.enter (h : w.Inv) (hq : w.requests x = some q) (hplace : q.place = .arrived)
    (hfresh : w.JoinsFresh (.enter x)) : (w.enter x q).Inv := by
  have hnone : w.flights x = none := h.no_flight hq fun flight hat => by rwa [hplace] at hat
  unfold Traffic.enter
  split
  next f hcall =>
    apply Traffic.onFlight_inv h
    intro flight hflight
    have hf : x ≠ f := by
      rintro rfl
      exact nomatch hnone.symm.trans hflight
    apply (h.waiters hflight _).follows hq ((flights_of_ne _ hf).trans hnone)
    · intro f' hwaiting
      obtain rfl := Place.waiting.inj hwaiting
      exact ⟨_, flights_self f _, hfresh q f flight hq hplace hcall hflight⟩
    · exact fun _ hserving => nomatch hserving
  next hcall =>
    refine h.leads hq _ _ .leading rfl (fun r hr => nomatch hr) ?_ ?_
    · intro before hbefore
      exact nomatch hnone.symm.trans hbefore
    · intro key f hkey
      by_cases hk : key = q.key
      · subst hk
        rw [Function.update_self] at hkey
        exact .inr ⟨(Option.some.inj hkey).symm, rfl, trivial⟩
      · rw [Function.update_of_ne hk] at hkey
        refine .inl ⟨hkey, ?_⟩
        rintro rfl
        exact hk (h.own_call hq hkey).1.symm

/-- **Every step keeps the invariant**, where nobody joins a read that has looked. -/
theorem Traffic.Inv.step (h : w.Inv) (a : Event κ δ) (hfresh : w.JoinsFresh a) : (w.step handler a).Inv := by
  cases a with
  | commit db =>
    exact { h with arrived := fun x q hq => Nat.le_succ_of_le (h.arrived x q hq) }
  | arrive x key =>
    simp only [Traffic.step]
    split
    next => exact h
    next hx => exact h.arrive hx key
  | enter x =>
    apply Traffic.onRequest_inv h
    intro q hq
    split
    next hplace => exact h.enter hq hplace hfresh
    next => exact h
  | query x =>
    apply Traffic.onRequest_inv h
    intro q hq
    split
    next hplace => exact Traffic.onFlight_inv h fun flight hflight => h.query hq hflight
    next reads hplace =>
      apply h.follows hq (h.no_flight hq fun flight hat => by rwa [hplace] at hat)
      · exact fun _ hwaiting => nomatch hwaiting
      · intro reads' hserving
        obtain rfl := Place.serving.inj hserving
        exact noOlder_append (h.serving x q reads hq hplace) (h.arrived x q hq)
    next => exact h
  | write x =>
    apply Traffic.onRequest_inv h
    intro q hq
    split
    next hplace =>
      refine Traffic.onOwn_inv h hq hplace fun flight hflight hat hreads => ?_
      exact (h.answer hreads _).goesOn hq hflight hat fun _ => trivial
    next => exact h
  | panic x =>
    apply Traffic.onRequest_inv h
    intro q hq
    split
    next hplace =>
      refine Traffic.onOwn_inv h hq hplace fun flight hflight hat hreads => ?_
      refine h.leadsOn hq _ _ hat hreads ?_ ?_
      · intro before hbefore a _ _
        refine .inl ?_
        unfold Flight.Doomed
        rw [show flight.ok = none from hat]
        exact .inr rfl
      · exact fun _ => trivial
    next reads hplace =>
      apply h.follows hq (h.no_flight hq fun flight hat => by rwa [hplace] at hat)
      · exact fun _ hwaiting => nomatch hwaiting
      · exact fun _ hserving => nomatch hserving
    next => exact h
  | settle x =>
    apply Traffic.onRequest_inv h
    intro q hq
    split
    next hplace =>
      refine Traffic.onOwn_inv h hq hplace fun flight hflight hat hreads => ?_
      refine h.leadsOn hq _ _ rfl hreads ?_ ?_
      · intro before hbefore a _ hanswers
        obtain rfl := Option.some.inj (hflight.symm.trans hbefore)
        exact hanswers.imp_left (doomed_settled hat)
      · exact fun _ => trivial
    next => exact h
  | remove x =>
    apply Traffic.onRequest_inv h
    intro q hq
    split
    next hplace => exact h.remove hq hplace
    next => exact h
  | close x =>
    apply Traffic.onRequest_inv h
    intro q hq
    split
    next hplace =>
      refine Traffic.onOwn_inv h hq hplace fun flight hflight hat hreads => ?_
      refine h.leadsOn hq _ _ hat hreads ?_ ?_
      · intro before hbefore a _ hanswers
        obtain rfl := Option.some.inj (hflight.symm.trans hbefore)
        exact hanswers
      · rw [hplace]
        exact False.elim
    next => exact h
  | receive x =>
    apply Traffic.onRequest_inv h
    intro q hq
    split
    next f hplace =>
      have hnone : w.flights x = none := h.no_flight hq fun flight hat => by rwa [hplace] at hat
      apply Traffic.onFlight_inv h
      intro flight hflight
      split
      next hok =>
        obtain ⟨flight', hflight', hanswers⟩ := h.waiting x q f hq hplace
        obtain rfl := Option.some.inj (hflight.symm.trans hflight')
        exact (h.answer (noOlder_of_ok hok hanswers) _).follows hq hnone (fun _ hwaiting => nomatch hwaiting)
          fun _ hserving => nomatch hserving
      next =>
        refine h.follows hq hnone (fun _ hwaiting => nomatch hwaiting) ?_
        intro reads hserving
        obtain rfl := Place.serving.inj hserving
        exact fun r hr => nomatch hr
      next => exact h
    next => exact h
  | leave x =>
    apply Traffic.onRequest_inv h
    intro q hq
    split
    next f hplace =>
      split
      next =>
        exact h.follows hq (h.no_flight hq fun flight hat => by rwa [hplace] at hat)
          (fun _ hwaiting => nomatch hwaiting) fun _ hserving => nomatch hserving
      next => exact h
    next => exact h
  | finish x =>
    apply Traffic.onRequest_inv h
    intro q hq
    split
    next reads hplace =>
      exact (h.answer (h.serving x q reads hq hplace) _).follows hq
        (h.no_flight hq fun flight hat => by rwa [hplace] at hat)
        (fun _ hwaiting => nomatch hwaiting) fun _ hserving => nomatch hserving
    next => exact h
  | cancel x =>
    refine { h with waiting := fun y q f hq hplace => ?_ }
    obtain ⟨flight, hflight, hanswers⟩ := h.waiting y q f hq hplace
    exact ⟨flight, hflight, hanswers.imp_left doomed_cancel⟩

/-! ## §6. A stale join is answered. -/

/-- The request waits for the read, whose leader is there. -/
structure Traffic.Waits (w : Traffic κ δ) (x f a : Nat) (flight : Flight δ) (place : Place δ) : Prop where
  waits : ∃ q, w.requests x = some q ∧ q.place = .waiting f ∧ q.arrivedAt = a
  leads : ∃ q, w.requests f = some q ∧ q.place = place
  read : w.flights f = some flight

variable {f a : Nat} {flight : Flight δ}

omit [DecidableEq κ] in
/-- The waiting request is not the leader. -/
theorem Traffic.Waits.ne {place : Place δ} (h : w.Waits x f a flight place) (hplace : place ≠ .waiting f) : x ≠ f := by
  rintro rfl
  obtain ⟨q, hq, hwaiting, -⟩ := h.waits
  obtain ⟨q', hq', hleads⟩ := h.leads
  obtain rfl := Option.some.inj (hq.symm.trans hq')
  exact hplace (hleads.symm.trans hwaiting)

omit [DecidableEq κ] in
/-- The leader goes on. -/
theorem Traffic.Waits.goesOn {place : Place δ} (h : w.Waits x f a flight place) (hplace : place ≠ .waiting f)
    (calls : κ → Option Nat) (q : Waiting κ δ) (flight' : Flight δ) (place' : Place δ) :
    (({ w with calls := calls }.setFlight f flight').setPlace f q place').Waits x f a flight' place' where
  waits := by
    obtain ⟨q', hq', hrest⟩ := h.waits
    exact ⟨q', (requests_of_ne _ (h.ne hplace)).trans hq', hrest⟩
  leads := ⟨_, requests_self _, rfl⟩
  read := flights_self f _

/-- A stale answer gets out. -/
def Traffic.Stales (handler : Nat → List δ → Response) (w : Traffic κ δ) : Prop :=
  ∃ more : List (Event κ δ), ¬(more.foldl (Traffic.step handler) w).Fresh

theorem Traffic.Stales.of_step (a' : Event κ δ) (h : (w.step handler a').Stales handler) : w.Stales handler := by
  obtain ⟨more, hmore⟩ := h
  exact ⟨a' :: more, hmore⟩

theorem stales_over (h : w.Waits x f a flight .over) (hok : flight.ok = some true) (hdone : flight.done = true)
    (hstale : ¬NoOlder a flight.reads) : w.Stales handler := by
  obtain ⟨q, hq, hplace, harrived⟩ := h.waits
  refine ⟨[.receive x], fun hfresh => hstale ?_⟩
  have hstep : w.step handler (.receive x) = (w.answer x q flight.reads
      (handler f (flight.reads.map Read.state)).shared).setPlace x q .over := by
    simp only [Traffic.step, Traffic.onRequest, hq, hplace, Traffic.onFlight, h.read, hdone, hok]
  have hanswer := hfresh ⟨x, q.arrivedAt, flight.reads, (handler f (flight.reads.map Read.state)).shared⟩ (by
    rw [List.foldl_cons, hstep]
    exact List.mem_append_right _ List.mem_cons_self)
  rwa [harrived] at hanswer

theorem stales_removed (h : w.Waits x f a flight .removed) (hok : flight.ok = some true)
    (hstale : ¬NoOlder a flight.reads) : w.Stales handler := by
  obtain ⟨q, hq, hplace⟩ := h.leads
  apply Traffic.Stales.of_step (.close f)
  have hstep : w.step handler (.close f) = (w.setFlight f { flight with done := true }).setPlace f q .over := by
    simp only [Traffic.step, Traffic.onRequest, hq, hplace, Traffic.onFlight, h.read]
  rw [hstep]
  exact stales_over (h.goesOn nofun w.calls q _ _) hok rfl hstale

theorem stales_settled (h : w.Waits x f a flight .settled) (hok : flight.ok = some true)
    (hstale : ¬NoOlder a flight.reads) : w.Stales handler := by
  obtain ⟨q, hq, hplace⟩ := h.leads
  apply Traffic.Stales.of_step (.remove f)
  have hstep : w.step handler (.remove f)
      = { w with calls := Function.update w.calls q.key none }.setPlace f q .removed := by
    simp only [Traffic.step, Traffic.onRequest, hq, hplace]
  have hgoes := h.goesOn nofun (Function.update w.calls q.key none) q flight .removed
  rw [setFlight_self (w := { w with calls := Function.update w.calls q.key none }) h.read] at hgoes
  rw [hstep]
  exact stales_removed hgoes hok hstale

theorem stales_served (h : w.Waits x f a flight .served) (hfailed : flight.failed = false)
    (hcancelled : w.cancelled f = false) (hstale : ¬NoOlder a flight.reads) : w.Stales handler := by
  obtain ⟨q, hq, hplace⟩ := h.leads
  apply Traffic.Stales.of_step (.settle f)
  have hstep : w.step handler (.settle f)
      = (w.setFlight f { flight with ok := some true }).setPlace f q .settled := by
    simp only [Traffic.step, Traffic.onRequest, hq, hplace, Traffic.onFlight, h.read, hfailed, hcancelled]
    rfl
  rw [hstep]
  exact stales_settled (h.goesOn nofun w.calls q _ _) rfl hstale

theorem stales_leading (h : w.Waits x f a flight .leading) (hfailed : flight.failed = false)
    (hcancelled : w.cancelled f = false) (hstale : ¬NoOlder a flight.reads) : w.Stales handler := by
  obtain ⟨q, hq, hplace⟩ := h.leads
  apply Traffic.Stales.of_step (.write f)
  have hstep : w.step handler (.write f)
      = (w.answer f q flight.reads (handler f (flight.reads.map Read.state))).setPlace f q .served := by
    simp only [Traffic.step, Traffic.onRequest, hq, hplace, Traffic.onFlight, h.read]
  have hgoes := h.goesOn nofun w.calls q flight .served
  rw [setFlight_self (w := { w with calls := w.calls }) h.read] at hgoes
  rw [hstep]
  exact stales_served (x := x) (a := a) ⟨hgoes.waits, hgoes.leads, hgoes.read⟩ hfailed hcancelled hstale

theorem not_doomed {cancelled : Bool} (h : ¬flight.Doomed cancelled) :
    flight.ok = none ∧ cancelled = false ∧ flight.failed = false ∨ flight.ok = some true := by
  unfold Flight.Doomed at h
  split at h
  next ok hok => exact .inr (hok.trans (congrArg some (Bool.not_eq_false _ ▸ h)))
  next hok =>
    obtain ⟨hcancelled, hfailed⟩ := not_or.mp h
    exact .inl ⟨hok, Bool.not_eq_true _ ▸ hcancelled, Bool.not_eq_true _ ▸ hfailed⟩

/-- **Where a request joins a read that has looked already, it may get its answer.** -/
theorem stales_of_join (h : w.Inv) (hjoin : ¬w.JoinsFresh (.enter x)) : (w.step handler (.enter x)).Stales handler := by
  simp only [Traffic.JoinsFresh, not_forall] at hjoin
  obtain ⟨q, f, flight, hq, hplace, hcall, hflight, hnot⟩ := hjoin
  obtain ⟨hdoomed, hstale⟩ := not_or.mp hnot
  obtain ⟨q', flight', hq', hflight', -, hrunning⟩ := h.calls q.key f hcall
  obtain rfl := Option.some.inj (hflight.symm.trans hflight')
  obtain ⟨hat, -⟩ := h.own hq' hflight
  have hne : f ≠ x := by
    rintro rfl
    obtain rfl := Option.some.inj (hq.symm.trans hq')
    rw [hplace] at hrunning
    exact hrunning
  have hstep : w.step handler (.enter x)
      = (w.setFlight f { flight with waiters := flight.waiters + 1 }).setPlace x q (.waiting f) := by
    simp only [Traffic.step, Traffic.onRequest, hq, hplace, Traffic.enter, hcall, Traffic.onFlight, hflight]
  have hwaits : ∀ place, q'.place = place → (w.step handler (.enter x)).Waits x f q.arrivedAt
      { flight with waiters := flight.waiters + 1 } place := by
    intro place hleads
    rw [hstep]
    exact ⟨⟨_, requests_self _, rfl, rfl⟩, ⟨q', (requests_of_ne _ hne).trans hq', hleads⟩, flights_self f _⟩
  have hcancelled : (w.step handler (.enter x)).cancelled = w.cancelled := by rw [hstep]; rfl
  cases hleads : q'.place with
  | leading =>
    rw [hleads] at hat
    obtain ⟨-, halive, hfailed⟩ := (not_doomed hdoomed).resolve_right fun h => nomatch hat.symm.trans h
    exact stales_leading (hwaits _ hleads) hfailed (by rw [hcancelled]; exact halive) hstale
  | served =>
    rw [hleads] at hat
    obtain ⟨-, halive, hfailed⟩ := (not_doomed hdoomed).resolve_right fun h => nomatch hat.symm.trans h
    exact stales_served (hwaits _ hleads) hfailed (by rw [hcancelled]; exact halive) hstale
  | settled =>
    rw [hleads] at hat
    have hok : flight.ok = some true := by
      refine (not_doomed hdoomed).resolve_left fun hnone => ?_
      have hset : flight.ok.isSome := hat
      rw [hnone.1] at hset
      cases hset
    exact stales_settled (hwaits _ hleads) hok hstale
  | _ =>
    rw [hleads] at hrunning
    exact hrunning.elim

/-! ## §7. Every run. -/

omit [DecidableEq κ] in
theorem inv_initial (db : δ) : (Traffic.initial db : Traffic κ δ).Inv where
  arrived _ _ hq := nomatch hq
  led _ _ hflight := nomatch hflight
  calls _ _ hcall := nomatch hcall
  waiting _ _ _ hq := nomatch hq
  serving _ _ _ hq := nomatch hq
  fresh _ ha := nomatch ha

end

/-- **SHARED READS ARE FRESH**, as long as nobody joins a read that has looked before
the request came, with a commit in between; and where somebody does, the run may go on
to hand over an answer that is older than its request. -/
theorem shared_reads_fresh [DecidableEq κ] (handler : Nat → List δ → Response) (db : δ) (events : List (Event κ δ))
    (hjoins : Along (Traffic.step handler) Traffic.JoinsFresh (Traffic.initial db) events) :
    (∀ n, ((events.take n).foldl (Traffic.step handler) (Traffic.initial db)).Fresh)
      ∧ ∀ x, ¬(events.foldl (Traffic.step handler) (Traffic.initial db)).JoinsFresh (.enter x) →
        ∃ more, ¬((events ++ Event.enter x :: more).foldl (Traffic.step handler) (Traffic.initial db)).Fresh := by
  have hinv : ∀ n, ((events.take n).foldl (Traffic.step handler) (Traffic.initial db)).Inv := fun n =>
    along_induction (fun _ a h hfresh => h.step a hfresh) _ (inv_initial db) (along_take n hjoins)
  constructor
  · exact fun n => (hinv n).fresh
  · intro x hjoin
    have hlast := hinv events.length
    rw [List.take_length] at hlast
    obtain ⟨more, hmore⟩ := stales_of_join hlast hjoin
    refine ⟨more, ?_⟩
    rw [List.foldl_append, List.foldl_cons]
    exact hmore

end

namespace SharedReadSample

/-- The database is a number of users; the report says it. -/
def handler (_ : Nat) (seen : List Nat) : Response := ⟨200, [], toString seen⟩

def key : String := "site|overview|"

/-- The leader's response is recorded and its read over. -/
def answered : List (Event String Nat) := [.write 0, .settle 0, .remove 0, .close 0, .receive 1]

/-- The second request joins before the first has looked. -/
def inTime : List (Event String Nat) :=
  [.arrive 0 key, .enter 0, .commit 42, .arrive 1 key, .enter 1, .query 0] ++ answered

/-- It joins when the first has looked, and the count has changed since. -/
def late : List (Event String Nat) :=
  [.arrive 0 key, .enter 0, .query 0, .commit 42, .arrive 1 key, .enter 1] ++ answered

end SharedReadSample

theorem shared_reads_fresh_inTime :
    (SharedReadSample.inTime.foldl (Traffic.step SharedReadSample.handler) (Traffic.initial 41)).Fresh := by
  rw [← List.take_length (l := SharedReadSample.inTime)]
  refine (shared_reads_fresh SharedReadSample.handler 41 SharedReadSample.inTime ?_).1 _
  refine ⟨trivial, ?_, trivial, trivial, ?_, trivial, trivial, trivial, trivial, trivial, trivial, trivial⟩
  · intro q f flight _ _ hcall
    exact nomatch (show none = some f from hcall)
  · intro q f flight hq _ hcall hflight
    obtain rfl := Option.some.inj (show some ⟨SharedReadSample.key, 1, .arrived⟩ = some q from hq)
    obtain rfl := Option.some.inj (show some 0 = some f from hcall)
    obtain rfl := Option.some.inj (show some ⟨0, [], false, none, false⟩ = some flight from hflight)
    exact .inr fun r hr => nomatch hr

/-- **A request is answered with what was there before it.** -/
theorem shared_read_stale :
    ¬(SharedReadSample.late.foldl (Traffic.step SharedReadSample.handler) (Traffic.initial 41)).Fresh := by
  decide +kernel

end Momento.SharedReads
