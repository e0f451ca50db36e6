/-
  Momento.Http.OauthDiscovery

  **ONE DISCOVERY AT A TIME.**  `oauthProvider` keeps what discovery at an issuer found.
  The first request that needs it asks the issuer under its own context; those that come
  while it is asking wait for what it finds, or for the end of their own context:

      look    — the part under the mutex: answer from the entry, wait for it, or lead
      settle  — `NewProvider` returned; the leader fills in its entry
      close   — `done` is closed, and the leader has its answer
      receive — a waiting request goes on once `done` is closed
      leave   — its own context is done

  A failure is believed for half a minute; what was found once is kept.  A leader whose
  request was cancelled has found out nothing, and whoever waited starts again.

  Requests, their cancellations and the clock interleave in any order.
-/
import Mathlib.Logic.Function.Basic
import Momento.Foundation.Runs

namespace Momento.OauthDiscovery

open Foundation

/-! ## §1. Requests and entries. -/

/-- `oauthDiscovery`, with when it began. -/
structure Discovery (ε π : Type) where
  issuer : String
  /-- How many began before it, at any issuer. -/
  turn : Nat
  begunAt : Nat
  /-- `provider` and `err`, once `NewProvider` returned. -/
  outcome : Option (Except ε π)
  until_ : Nat
  abandoned : Bool
  done : Bool

/-- Where a request is. -/
inductive Place where
  | looking
  | leading
  | settled
  | waiting (leader : Nat)
  | answered
  deriving DecidableEq

/-- A request that asks for the provider. -/
structure Request where
  issuer : String
  place : Place

/-- What a request was handed, and whose discovery that is from; none is the end of its
own context. -/
structure Answer (ε π : Type) where
  request : Nat
  found : Option (Nat × Except ε π)

/-- The provider cache and the requests around it.  An entry is kept under the request
that leads it. -/
structure Cache (ε π : Type) where
  clock : Nat
  turns : Nat
  /-- `oauthProviders`. -/
  providers : String → Option Nat
  discoveries : Nat → Option (Discovery ε π)
  requests : Nat → Option Request
  cancelled : Nat → Bool
  answers : List (Answer ε π)

/-- What may happen, in any order. -/
inductive Event (ε π : Type) where
  | tick (nanoseconds : Nat)
  | arrive (x : Nat) (issuer : String)
  | look (x : Nat)
  | settle (x : Nat) (outcome : Except ε π)
  | close (x : Nat)
  | receive (x : Nat)
  | leave (x : Nat)
  | cancel (x : Nat)

/-- `oauthDiscoveryRetry`. -/
def oauthDiscoveryRetry : Nat := 30 * 1000000000

/-! ## §2. Steps. -/

section
variable {ε π : Type}

/-- It has ended in an error. -/
def Discovery.failed (d : Discovery ε π) : Bool :=
  match d.outcome with
  | some (.error _) => true
  | _ => false

/-- Its outcome is taken as it is. -/
def Discovery.stands (d : Discovery ε π) (clock : Nat) : Bool := !d.abandoned && (!d.failed || decide (clock < d.until_))

namespace Cache
variable (c : Cache ε π)

/-- Nobody has asked. -/
def initial : Cache ε π := ⟨0, 0, fun _ => none, fun _ => none, fun _ => none, fun _ => false, []⟩

/-- A request comes in. -/
def arrive (x : Nat) (issuer : String) : Cache ε π :=
  match c.requests x with
  | some _ => c
  | none => { c with requests := Function.update c.requests x (some ⟨issuer, .looking⟩) }

/-- A request goes on. -/
def setPlace (x : Nat) (q : Request) (place : Place) : Cache ε π :=
  { c with requests := Function.update c.requests x (some { q with place := place }) }

/-- A discovery goes on. -/
def setDiscovery (f : Nat) (d : Discovery ε π) : Cache ε π :=
  { c with discoveries := Function.update c.discoveries f (some d) }

/-- A request is answered. -/
def answer (x : Nat) (found : Option (Nat × Except ε π)) : Cache ε π := { c with answers := c.answers ++ [⟨x, found⟩] }

/-- A step of a request that is there. -/
def onRequest (x : Nat) (step : Request → Cache ε π) : Cache ε π :=
  match c.requests x with
  | some q => step q
  | none => c

/-- A step of a discovery that is there. -/
def onDiscovery (f : Nat) (step : Discovery ε π → Cache ε π) : Cache ε π :=
  match c.discoveries f with
  | some d => step d
  | none => c

/-- The request leads. -/
def lead (x : Nat) (q : Request) : Cache ε π :=
  ({ c with providers := Function.update c.providers q.issuer (some x), turns := c.turns + 1 }.setDiscovery x
    ⟨q.issuer, c.turns, c.clock, none, 0, false, false⟩).setPlace x q .leading

/-- Under the mutex. -/
def look (x : Nat) (q : Request) : Cache ε π :=
  match c.providers q.issuer with
  | none => c.lead x q
  | some f => c.onDiscovery f fun d =>
    if d.done then
      match d.outcome with
      | some outcome =>
        if d.stands c.clock then (c.answer x (some (f, outcome))).setPlace x q .answered else c.lead x q
      | none => c
    else c.setPlace x q (.waiting f)

/-- **A step.** -/
def step (c : Cache ε π) : Event ε π → Cache ε π
  | .tick nanoseconds => { c with clock := c.clock + nanoseconds }
  | .arrive x issuer => c.arrive x issuer
  | .look x => c.onRequest x fun q =>
    match q.place with
    | .looking => c.look x q
    | _ => c
  | .settle x outcome => c.onRequest x fun q =>
    match q.place with
    | .leading => c.onDiscovery x fun d =>
      (c.setDiscovery x { d with
        outcome := some outcome
        until_ := c.clock + oauthDiscoveryRetry
        abandoned := !outcome.isOk && c.cancelled x }).setPlace x q .settled
    | _ => c
  | .close x => c.onRequest x fun q =>
    match q.place with
    | .settled => c.onDiscovery x fun d =>
      match d.outcome with
      | some outcome =>
        ((c.setDiscovery x { d with done := true }).setPlace x q .answered).answer x (some (x, outcome))
      | none => c
    | _ => c
  | .receive x => c.onRequest x fun q =>
    match q.place with
    | .waiting f => c.onDiscovery f fun d =>
      if d.done then
        match d.outcome with
        | some outcome =>
          if d.abandoned then c.setPlace x q .looking
          else (c.answer x (some (f, outcome))).setPlace x q .answered
        | none => c
      else c
    | _ => c
  | .leave x => c.onRequest x fun q =>
    match q.place with
    | .waiting _ => if c.cancelled x then (c.answer x none).setPlace x q .answered else c
    | _ => c
  | .cancel x => { c with cancelled := Function.update c.cancelled x true }

end Cache

/-! ## §3. What should hold. -/

/-- A discovery that `next` may follow. -/
def Discovery.Precedes (d next : Discovery ε π) : Prop :=
  d.done = true ∧ (d.abandoned = true ∨ d.failed = true ∧ d.until_ ≤ next.begunAt)

/-- The answer is the end of the request's own context, or what a discovery at its issuer
found: its own, or one that was not cut short. -/
def Answer.Justified (c : Cache ε π) (a : Answer ε π) : Prop :=
  match a.found with
  | none => c.cancelled a.request = true
  | some (f, outcome) => ∃ q d, c.requests a.request = some q ∧ c.discoveries f = some d ∧ d.issuer = q.issuer
      ∧ d.outcome = some outcome ∧ (f = a.request ∨ d.abandoned = false)

/-- **What holds of the cache at any time.** -/
structure Cache.Sound (c : Cache ε π) : Prop where
  spaced : ∀ f g d d', c.discoveries f = some d → c.discoveries g = some d' → d.issuer = d'.issuer → d.turn < d'.turn →
    d.Precedes d'
  told : ∀ f g d d', c.discoveries f = some d → c.discoveries g = some d' → d.turn = d'.turn → f = g
  answers : ∀ a ∈ c.answers, a.Justified c
  /-- Whoever waits, waits for a discovery that is over or has its leader at it. -/
  waited : ∀ x q f, c.requests x = some q → q.place = .waiting f →
    ∃ d, c.discoveries f = some d ∧ d.issuer = q.issuer ∧ (d.done = true ∧ d.outcome.isSome = true
      ∨ ∃ leader, c.requests f = some leader ∧ (leader.place = .leading ∨ leader.place = .settled))

/-! ## §4. The invariant. -/

/-- What a discovery says where its leader is. -/
def Discovery.At (d : Discovery ε π) : Place → Prop
  | .leading => d.outcome = none ∧ d.done = false
  | .settled => d.outcome.isSome = true ∧ d.done = false
  | .answered => d.outcome.isSome = true ∧ d.done = true
  | _ => False

/-- **The invariant.** -/
structure Cache.Inv (c : Cache ε π) : Prop where
  begun : ∀ f d, c.discoveries f = some d → d.turn < c.turns ∧ d.begunAt ≤ c.clock
  spaced : ∀ f g d d', c.discoveries f = some d → c.discoveries g = some d' → d.issuer = d'.issuer → d.turn < d'.turn →
    d.Precedes d'
  told : ∀ f g d d', c.discoveries f = some d → c.discoveries g = some d' → d.turn = d'.turn → f = g
  latest : ∀ issuer f, c.providers issuer = some f → ∃ d, c.discoveries f = some d ∧ d.issuer = issuer
    ∧ ∀ g d', c.discoveries g = some d' → d'.issuer = issuer → d'.turn ≤ d.turn
  unknown : ∀ issuer, c.providers issuer = none → ∀ f d, c.discoveries f = some d → d.issuer ≠ issuer
  led : ∀ f d, c.discoveries f = some d → ∃ q, c.requests f = some q ∧ d.issuer = q.issuer ∧ d.At q.place
  waiting : ∀ x q f, c.requests x = some q → q.place = .waiting f →
    ∃ d, c.discoveries f = some d ∧ d.issuer = q.issuer
  answers : ∀ a ∈ c.answers, a.Justified c

/-- Nothing is cached. -/
theorem Cache.Inv.initial : (Cache.initial : Cache ε π).Inv where
  begun _ _ h := by cases h
  spaced _ _ _ _ h := by cases h
  told _ _ _ _ h := by cases h
  latest _ _ h := by cases h
  unknown _ _ _ _ h := by cases h
  led _ _ h := by cases h
  waiting _ _ _ h := by cases h
  answers _ h := absurd h List.not_mem_nil

section
variable {c c' : Cache ε π} {x : Nat} {q : Request}

/-- Whose request it is after one changed its place. -/
theorem request_of_setPlace {place : Place} {y : Nat} {q' : Request} (h : (c.setPlace x q place).requests y = some q') :
    y = x ∧ q' = { q with place := place } ∨ y ≠ x ∧ c.requests y = some q' := by
  by_cases hy : y = x
  · subst hy
    exact Or.inl ⟨rfl, (Option.some.inj ((Function.update_self y _ c.requests).symm.trans h)).symm⟩
  · exact Or.inr ⟨hy, (Function.update_of_ne hy _ c.requests).symm.trans h⟩

theorem requests_self (place : Place) : (c.setPlace x q place).requests x = some { q with place := place } :=
  Function.update_self x _ c.requests

theorem requests_of_ne (place : Place) {y : Nat} (hy : y ≠ x) : (c.setPlace x q place).requests y = c.requests y :=
  Function.update_of_ne hy _ c.requests

theorem discovery_of_setDiscovery {f f' : Nat} {d d' : Discovery ε π}
    (h : (c.setDiscovery f d).discoveries f' = some d') :
    f' = f ∧ d' = d ∨ f' ≠ f ∧ c.discoveries f' = some d' := by
  by_cases hf : f' = f
  · subst hf
    exact Or.inl ⟨rfl, (Option.some.inj ((Function.update_self f' _ c.discoveries).symm.trans h)).symm⟩
  · exact Or.inr ⟨hf, (Function.update_of_ne hf _ c.discoveries).symm.trans h⟩

theorem discoveries_self (f : Nat) (d : Discovery ε π) : (c.setDiscovery f d).discoveries f = some d :=
  Function.update_self f _ c.discoveries

theorem discoveries_of_ne {f f' : Nat} (d : Discovery ε π) (hf : f' ≠ f) :
    (c.setDiscovery f d).discoveries f' = c.discoveries f' := Function.update_of_ne hf _ c.discoveries

/-- An answer stays justified: requests keep their issuers, and what was found is kept. -/
theorem Answer.Justified.mono {a : Answer ε π} (h : a.Justified c)
    (hrequests : ∀ y q, c.requests y = some q → ∃ q', c'.requests y = some q' ∧ q'.issuer = q.issuer)
    (hkept : ∀ f d, c.discoveries f = some d → d.outcome.isSome = true → ∃ d', c'.discoveries f = some d'
      ∧ d'.issuer = d.issuer ∧ d'.outcome = d.outcome ∧ d'.abandoned = d.abandoned)
    (hcancelled : ∀ y, c.cancelled y = true → c'.cancelled y = true) : a.Justified c' := by
  unfold Answer.Justified at h ⊢
  cases hfound : a.found with
  | none =>
    rw [hfound] at h
    exact hcancelled _ h
  | some found =>
    rw [hfound] at h
    obtain ⟨q, d, hq, hd, hissuer, houtcome, hwhose⟩ := h
    obtain ⟨q', hq', hsame⟩ := hrequests _ q hq
    obtain ⟨d', hd', hissuer', houtcome', habandoned⟩ := hkept _ d hd (by rw [houtcome]; rfl)
    refine ⟨q', d', hq', hd', ?_, houtcome'.trans houtcome, ?_⟩
    · rw [hissuer', hsame, hissuer]
    · rw [habandoned]
      exact hwhose

theorem Answer.Justified.setPlace {a : Answer ε π} (h : a.Justified c) (hq : c.requests x = some q) (place : Place) :
    a.Justified (c.setPlace x q place) := by
  refine h.mono (fun y q' hq' => ?_) (fun f d hd _ => ⟨d, hd, rfl, rfl, rfl⟩) fun _ hc => hc
  by_cases hy : y = x
  · subst hy
    rw [← Option.some.inj (hq.symm.trans hq')]
    exact ⟨_, requests_self place, rfl⟩
  · exact ⟨q', (requests_of_ne place hy).trans hq', rfl⟩

/-- A request that leads nothing has no entry. -/
theorem Cache.Inv.no_discovery (h : c.Inv) (hq : c.requests x = some q)
    (hplace : ∀ d : Discovery ε π, ¬d.At q.place) : c.discoveries x = none := by
  cases hd : c.discoveries x with
  | none => rfl
  | some d =>
    obtain ⟨q', hq', -, hat⟩ := h.led x d hd
    rw [← Option.some.inj (hq.symm.trans hq')] at hat
    exact absurd hat (hplace d)

/-- **A request that leads nothing goes elsewhere.** -/
theorem Cache.Inv.follows (h : c.Inv) (hq : c.requests x = some q) (hnone : c.discoveries x = none) {place : Place}
    (hwaiting : ∀ f, place = .waiting f → ∃ d, c.discoveries f = some d ∧ d.issuer = q.issuer) :
    (c.setPlace x q place).Inv where
  begun := h.begun
  spaced := h.spaced
  told := h.told
  latest := h.latest
  unknown := h.unknown
  led f d hd := by
    have hf : f ≠ x := by
      intro heq
      have hd : c.discoveries f = some d := hd
      rw [heq, hnone] at hd
      cases hd
    obtain ⟨q', hq', hrest⟩ := h.led f d hd
    exact ⟨q', (requests_of_ne place hf).trans hq', hrest⟩
  waiting y q' f hq' hplace := by
    cases request_of_setPlace hq' with
    | inl hself =>
      rw [hself.2] at hplace ⊢
      exact hwaiting f hplace
    | inr hother => exact h.waiting y q' f hother.2 hplace
  answers a ha := (h.answers a ha).setPlace hq place

/-- **A leader's step** fills in its entry. -/
theorem Cache.Inv.leads (h : c.Inv) (hq : c.requests x = some q) {d : Discovery ε π} (hd : c.discoveries x = some d)
    (d' : Discovery ε π) (hissuer : d'.issuer = d.issuer) (hturn : d'.turn = d.turn) (hbegun : d'.begunAt = d.begunAt) (place : Place)
    (hat : d'.At place) (hkept : d.outcome.isSome = true → d'.outcome = d.outcome ∧ d'.abandoned = d.abandoned)
    (hprecedes : ∀ next, d.Precedes next → d'.Precedes next) : ((c.setDiscovery x d').setPlace x q place).Inv := by
  have hsame : ∀ {g e}, (c.setDiscovery x d').discoveries g = some e →
      ∃ e', c.discoveries g = some e' ∧ e.issuer = e'.issuer ∧ e.turn = e'.turn ∧ e.begunAt = e'.begunAt
        ∧ ∀ next, e'.Precedes next → e.Precedes next := by
    intro g e he
    cases discovery_of_setDiscovery he with
    | inl hself =>
      rw [hself.1, hself.2]
      exact ⟨d, hd, hissuer, hturn, hbegun, hprecedes⟩
    | inr hother => exact ⟨e, hother.2, rfl, rfl, rfl, fun _ hp => hp⟩
  refine { begun := ?_, spaced := ?_, told := ?_, latest := ?_, unknown := ?_, led := ?_, waiting := ?_, answers := ?_ }
  · intro f e he
    obtain ⟨e', he', -, hturn', hbegun', -⟩ := hsame he
    rw [hturn', hbegun']
    exact h.begun f e' he'
  · intro f g e e₂ he he₂ hissuers hturns
    obtain ⟨e', he', hissuer', hturn', -, hprec⟩ := hsame he
    obtain ⟨e₂', he₂', hissuer₂, hturn₂, hbegun₂, -⟩ := hsame he₂
    rw [hissuer', hissuer₂] at hissuers
    rw [hturn', hturn₂] at hturns
    have hold := hprec e₂' (h.spaced f g e' e₂' he' he₂' hissuers hturns)
    unfold Discovery.Precedes at hold ⊢
    rw [hbegun₂]
    exact hold
  · intro f g e e₂ he he₂ hturns
    obtain ⟨e', he', -, hturn', -⟩ := hsame he
    obtain ⟨e₂', he₂', -, hturn₂, -⟩ := hsame he₂
    rw [hturn', hturn₂] at hturns
    exact h.told f g e' e₂' he' he₂' hturns
  · intro issuer f hf
    obtain ⟨e, he, hissuer', hlast⟩ := h.latest issuer f hf
    have hnew : ∃ e', (c.setDiscovery x d').discoveries f = some e' ∧ e'.issuer = e.issuer ∧ e'.turn = e.turn := by
      by_cases hfx : f = x
      · rw [hfx, hd] at he
        rw [hfx, ← Option.some.inj he]
        exact ⟨d', discoveries_self x d', hissuer, hturn⟩
      · exact ⟨e, (discoveries_of_ne d' hfx).trans he, rfl, rfl⟩
    obtain ⟨e', he', hissuer'', hturn'⟩ := hnew
    refine ⟨e', he', hissuer''.trans hissuer', fun g e₂ he₂ hissuer₂ => ?_⟩
    obtain ⟨e₂', he₂', hissuer₂', hturn₂, -⟩ := hsame he₂
    rw [hturn', hturn₂]
    exact hlast g e₂' he₂' (hissuer₂'.symm.trans hissuer₂)
  · intro issuer hnone f e he
    obtain ⟨e', he', hissuer', -⟩ := hsame he
    rw [hissuer']
    exact h.unknown issuer hnone f e' he'
  · intro f e he
    cases discovery_of_setDiscovery he with
    | inl hself =>
      obtain ⟨q', hq', hissuer', -⟩ := h.led x d hd
      rw [← Option.some.inj (hq.symm.trans hq')] at hissuer'
      rw [hself.1, hself.2]
      exact ⟨_, requests_self place, hissuer.trans hissuer', hat⟩
    | inr hother =>
      obtain ⟨q', hq', hrest⟩ := h.led f e hother.2
      exact ⟨q', (requests_of_ne place hother.1).trans hq', hrest⟩
  · intro y q' f hq' hplace
    have hfound : ∀ e, c.discoveries f = some e → ∃ e', (c.setDiscovery x d').discoveries f = some e'
        ∧ e'.issuer = e.issuer := by
      intro e he
      by_cases hfx : f = x
      · rw [hfx, hd] at he
        rw [hfx, ← Option.some.inj he]
        exact ⟨d', discoveries_self x d', hissuer⟩
      · exact ⟨e, (discoveries_of_ne d' hfx).trans he, rfl⟩
    cases request_of_setPlace hq' with
    | inl hself =>
      -- a leader does not wait
      rw [hself.2] at hplace
      have hplace : place = .waiting f := hplace
      rw [hplace] at hat
      exact hat.elim
    | inr hother =>
      obtain ⟨e, he, hissuer'⟩ := h.waiting y q' f hother.2 hplace
      obtain ⟨e', he', hissuer''⟩ := hfound e he
      exact ⟨e', he', hissuer''.trans hissuer'⟩
  · intro a ha
    refine Answer.Justified.setPlace (c := c.setDiscovery x d') ?_ hq place
    refine (h.answers a ha).mono (fun y q' hq' => ⟨q', hq', rfl⟩) (fun f e he hsome => ?_) fun _ hc => hc
    by_cases hfx : f = x
    · rw [hfx, hd] at he
      obtain rfl := Option.some.inj he
      rw [hfx]
      exact ⟨d', discoveries_self x d', hissuer, (hkept hsome).1, (hkept hsome).2⟩
    · exact ⟨e, (discoveries_of_ne d' hfx).trans he, rfl, rfl, rfl⟩

/-- **A discovery begins**, after all others at its issuer. -/
theorem Cache.Inv.begins (h : c.Inv) (hq : c.requests x = some q) (hnone : c.discoveries x = none)
    (hafter : ∀ f, c.providers q.issuer = some f → ∀ d, c.discoveries f = some d →
      d.done = true ∧ (d.abandoned = true ∨ d.failed = true ∧ d.until_ ≤ c.clock)) : (c.lead x q).Inv := by
  let new : Discovery ε π := ⟨q.issuer, c.turns, c.clock, none, 0, false, false⟩
  have hother : ∀ f d, c.discoveries f = some d → f ≠ x := by
    intro f d hd heq
    rw [heq, hnone] at hd
    cases hd
  have hprecedes : ∀ f d, c.discoveries f = some d → d.issuer = q.issuer → d.Precedes new := by
    intro f d hd hissuer
    cases hprovider : c.providers q.issuer with
    | none => exact absurd hissuer (h.unknown q.issuer hprovider f d hd)
    | some last =>
      obtain ⟨e, he, hissuer', hlast⟩ := h.latest q.issuer last hprovider
      by_cases hf : f = last
      · rw [hf, he] at hd
        rw [← Option.some.inj hd]
        exact hafter last hprovider e he
      · -- an earlier one precedes the latest, which began before now
        have hturn : d.turn < e.turn :=
          Nat.lt_of_le_of_ne (hlast f d hd hissuer) fun heq => hf (h.told f last d e hd he heq)
        obtain ⟨hdone, hwhy⟩ := h.spaced f last d e hd he (hissuer.trans hissuer'.symm) hturn
        exact ⟨hdone, hwhy.imp_right fun hfailed => ⟨hfailed.1, Nat.le_trans hfailed.2 (h.begun last e he).2⟩⟩
  show ((Cache.setDiscovery { c with providers := _, turns := c.turns + 1 } x new).setPlace x q .leading).Inv
  refine { begun := ?_, spaced := ?_, told := ?_, latest := ?_, unknown := ?_, led := ?_, waiting := ?_, answers := ?_ }
  · intro f d hd
    cases discovery_of_setDiscovery hd with
    | inl hself =>
      rw [hself.2]
      exact ⟨Nat.lt_succ_self _, Nat.le_refl _⟩
    | inr hold => exact ⟨Nat.lt_succ_of_lt (h.begun f d hold.2).1, (h.begun f d hold.2).2⟩
  · intro f g d d' hd hd' hissuer hturn
    cases discovery_of_setDiscovery hd' with
    | inl hself =>
      rw [hself.2] at hissuer hturn ⊢
      cases discovery_of_setDiscovery hd with
      | inl hself' =>
        rw [hself'.2] at hturn
        exact absurd hturn (Nat.lt_irrefl _)
      | inr hold => exact hprecedes f d hold.2 hissuer
    | inr hold' =>
      cases discovery_of_setDiscovery hd with
      | inl hself =>
        rw [hself.2] at hturn
        exact absurd (Nat.lt_trans hturn (h.begun g d' hold'.2).1) (Nat.lt_irrefl _)
      | inr hold => exact h.spaced f g d d' hold.2 hold'.2 hissuer hturn
  · intro f g d d' hd hd' hturn
    cases discovery_of_setDiscovery hd with
    | inl hself =>
      cases discovery_of_setDiscovery hd' with
      | inl hself' => rw [hself.1, hself'.1]
      | inr hold' =>
        rw [hself.2] at hturn
        have hlt := (h.begun g d' hold'.2).1
        rw [← hturn] at hlt
        exact absurd hlt (Nat.lt_irrefl _)
    | inr hold =>
      cases discovery_of_setDiscovery hd' with
      | inl hself' =>
        rw [hself'.2] at hturn
        have hlt := (h.begun f d hold.2).1
        rw [hturn] at hlt
        exact absurd hlt (Nat.lt_irrefl _)
      | inr hold' => exact h.told f g d d' hold.2 hold'.2 hturn
  · intro issuer f hf
    by_cases hissuer : issuer = q.issuer
    · subst hissuer
      have hfx : x = f := Option.some.inj ((Function.update_self q.issuer _ c.providers).symm.trans hf)
      rw [← hfx]
      refine ⟨new, discoveries_self x new, rfl, fun g d hd _ => ?_⟩
      cases discovery_of_setDiscovery hd with
      | inl hself => exact Nat.le_of_eq (congrArg Discovery.turn hself.2)
      | inr hold => exact Nat.le_of_lt (h.begun g d hold.2).1
    · obtain ⟨d, hd, hissuer', hlast⟩ := h.latest issuer f ((Function.update_of_ne hissuer _ c.providers).symm.trans hf)
      refine ⟨d, (discoveries_of_ne new (hother f d hd)).trans hd, hissuer', fun g d' hd' hsame => ?_⟩
      cases discovery_of_setDiscovery hd' with
      | inl hself =>
        rw [hself.2] at hsame
        exact absurd hsame.symm hissuer
      | inr hold => exact hlast g d' hold.2 hsame
  · intro issuer hissuer f d hd
    have hne : issuer ≠ q.issuer := by
      intro heq
      subst heq
      have hnew : Function.update c.providers q.issuer (some x) q.issuer = none := hissuer
      rw [Function.update_self] at hnew
      cases hnew
    cases discovery_of_setDiscovery hd with
    | inl hself =>
      rw [hself.2]
      exact hne.symm
    | inr hold => exact h.unknown issuer ((Function.update_of_ne hne _ c.providers).symm.trans hissuer) f d hold.2
  · intro f d hd
    cases discovery_of_setDiscovery hd with
    | inl hself =>
      rw [hself.1, hself.2]
      exact ⟨_, requests_self .leading, rfl, rfl, rfl⟩
    | inr hold =>
      obtain ⟨q', hq', hrest⟩ := h.led f d hold.2
      exact ⟨q', (requests_of_ne .leading hold.1).trans hq', hrest⟩
  · intro y q' f hq' hplace
    cases request_of_setPlace hq' with
    | inl hself =>
      rw [hself.2] at hplace
      cases hplace
    | inr hold =>
      obtain ⟨d, hd, hissuer⟩ := h.waiting y q' f hold.2 hplace
      exact ⟨d, (discoveries_of_ne new (hother f d hd)).trans hd, hissuer⟩
  · intro a ha
    refine Answer.Justified.setPlace (c := Cache.setDiscovery { c with providers := _, turns := _ } x new) ?_ hq .leading
    refine (h.answers a ha).mono (fun y q' hq' => ⟨q', hq', rfl⟩) (fun f d hd _ => ?_) fun _ hc => hc
    exact ⟨d, (discoveries_of_ne new (hother f d hd)).trans hd, rfl, rfl, rfl⟩

/-- A justified answer is handed over. -/
theorem Cache.Inv.answer (h : c.Inv) {found : Option (Nat × Except ε π)} (hjustified : Answer.Justified c ⟨x, found⟩) :
    (c.answer x found).Inv := by
  have hsame : ∀ a : Answer ε π, a.Justified c → a.Justified (c.answer x found) := fun _ ha => ha
  refine { h with answers := fun a ha => ?_ }
  cases List.mem_append.mp ha with
  | inl hold => exact hsame a (h.answers a hold)
  | inr hnew =>
    rw [List.mem_singleton.mp hnew]
    exact hsame _ hjustified

end

/-! ## §5. Every step. -/

/-- A request that is there. -/
theorem onRequest_inv {c : Cache ε π} (h : c.Inv) {x : Nat} {step : Request → Cache ε π}
    (hstep : ∀ q, c.requests x = some q → (step q).Inv) : (c.onRequest x step).Inv := by
  unfold Cache.onRequest
  cases hq : c.requests x with
  | none => exact h
  | some q => exact hstep q hq

/-- A discovery under way. -/
theorem onDiscovery_inv {c : Cache ε π} (h : c.Inv) {f : Nat} {step : Discovery ε π → Cache ε π}
    (hstep : ∀ d, c.discoveries f = some d → (step d).Inv) : (c.onDiscovery f step).Inv := by
  unfold Cache.onDiscovery
  cases hd : c.discoveries f with
  | none => exact h
  | some d => exact hstep d hd

/-- What stands may be handed to anybody who asks at its issuer. -/
theorem justified_of_kept {c : Cache ε π} {x f : Nat} {q : Request} {d : Discovery ε π} {outcome : Except ε π}
    (hq : c.requests x = some q) (hd : c.discoveries f = some d) (hissuer : d.issuer = q.issuer)
    (houtcome : d.outcome = some outcome) (hwhose : f = x ∨ d.abandoned = false) :
    Answer.Justified c ⟨x, some (f, outcome)⟩ :=
  ⟨q, d, hq, hd, hissuer, houtcome, hwhose⟩

/-- A request that looks leads nothing, and may start a discovery unless one stands. -/
theorem look_inv {c : Cache ε π} (h : c.Inv) {x : Nat} {q : Request} (hq : c.requests x = some q)
    (hplace : q.place = .looking) : (c.look x q).Inv := by
  have hnone : c.discoveries x = none := by
    refine h.no_discovery hq fun d hat => ?_
    rw [hplace] at hat
    exact hat
  unfold Cache.look
  cases hprovider : c.providers q.issuer with
  | none =>
    refine h.begins hq hnone fun f hf => ?_
    rw [hprovider] at hf
    cases hf
  | some f =>
    refine onDiscovery_inv h fun d hd => ?_
    obtain ⟨e, he, hissuer, -⟩ := h.latest q.issuer f hprovider
    rw [hd] at he
    rw [← Option.some.inj he] at hissuer
    by_cases hdone : d.done = true
    · rw [if_pos hdone]
      cases houtcome : d.outcome with
      | none => exact h
      | some outcome =>
        dsimp only
        by_cases hstands : d.stands c.clock = true
        · rw [if_pos hstands]
          have hkept : d.abandoned = false := by
            unfold Discovery.stands at hstands
            rw [Bool.and_eq_true, Bool.not_eq_true'] at hstands
            exact hstands.1
          have hanswered := h.answer (justified_of_kept hq hd hissuer houtcome (Or.inr hkept))
          exact hanswered.follows hq hnone fun g hg => by cases hg
        · rw [if_neg hstands]
          refine h.begins hq hnone fun g hg e he => ?_
          rw [hprovider] at hg
          rw [← Option.some.inj hg, hd] at he
          rw [← Option.some.inj he]
          refine ⟨hdone, ?_⟩
          unfold Discovery.stands at hstands
          cases habandoned : d.abandoned with
          | true => exact Or.inl rfl
          | false =>
            rw [habandoned] at hstands
            cases hfailed : d.failed with
            | false =>
              rw [hfailed] at hstands
              exact absurd rfl hstands
            | true =>
              rw [hfailed] at hstands
              refine Or.inr ⟨rfl, Nat.le_of_not_lt fun hlt => hstands ?_⟩
              rw [decide_eq_true hlt]
              rfl
    · rw [if_neg hdone]
      refine h.follows hq hnone fun g hg => ?_
      obtain rfl := Place.waiting.inj hg
      exact ⟨d, hd, hissuer⟩

/-- **Each step keeps the invariant.** -/
theorem step_inv {c : Cache ε π} (h : c.Inv) (a : Event ε π) : (c.step a).Inv := by
  cases a with
  | tick nanoseconds =>
    have hsame : ∀ a : Answer ε π, a.Justified c → a.Justified { c with clock := c.clock + nanoseconds } :=
      fun _ ha => ha
    refine { h with begun := fun f d hd => ?_, answers := fun a ha => hsame a (h.answers a ha) }
    exact ⟨(h.begun f d hd).1, Nat.le_trans (h.begun f d hd).2 (Nat.le_add_right _ _)⟩
  | arrive x issuer =>
    show (c.arrive x issuer).Inv
    unfold Cache.arrive
    cases hx : c.requests x with
    | some q => exact h
    | none =>
      have hold : ∀ {y q}, c.requests y = some q →
          Function.update c.requests x (some ⟨issuer, .looking⟩) y = some q := by
        intro y q hq
        rw [Function.update_of_ne]
        · exact hq
        · intro hyx
          rw [hyx, hx] at hq
          cases hq
      refine { h with led := fun f d hd => ?_, waiting := fun y q f hq hplace => ?_, answers := fun a ha => ?_ }
      · obtain ⟨q, hq, hrest⟩ := h.led f d hd
        exact ⟨q, hold hq, hrest⟩
      · have hq : Function.update c.requests x (some ⟨issuer, .looking⟩) y = some q := hq
        by_cases hyx : y = x
        · rw [hyx, Function.update_self] at hq
          rw [← Option.some.inj hq] at hplace
          cases hplace
        · rw [Function.update_of_ne hyx] at hq
          exact h.waiting y q f hq hplace
      · exact (h.answers a ha).mono (fun y q hq => ⟨q, hold hq, rfl⟩) (fun f d hd _ => ⟨d, hd, rfl, rfl, rfl⟩)
          fun _ hc => hc
  | look x =>
    refine onRequest_inv h fun q hq => ?_
    cases hplace : q.place with
    | looking => exact look_inv h hq hplace
    | _ => exact h
  | settle x outcome =>
    refine onRequest_inv h fun q hq => ?_
    cases hplace : q.place with
    | leading =>
      refine onDiscovery_inv h fun d hd => ?_
      obtain ⟨q', hq', -, hat⟩ := h.led x d hd
      rw [← Option.some.inj (hq.symm.trans hq'), hplace] at hat
      refine h.leads hq hd { d with
        outcome := some outcome
        until_ := c.clock + oauthDiscoveryRetry
        abandoned := !outcome.isOk && c.cancelled x } rfl rfl rfl .settled ⟨rfl, hat.2⟩ (fun hsome => ?_) fun next hprec => ?_
      · rw [hat.1] at hsome
        cases hsome
      · have hdone := hprec.1
        rw [hat.2] at hdone
        cases hdone
    | _ => exact h
  | close x =>
    refine onRequest_inv h fun q hq => ?_
    cases hplace : q.place with
    | settled =>
      refine onDiscovery_inv h fun d hd => ?_
      obtain ⟨q', hq', hissuer, hat⟩ := h.led x d hd
      rw [← Option.some.inj (hq.symm.trans hq')] at hissuer hat
      rw [hplace] at hat
      have hclosed : ((c.setDiscovery x { d with done := true }).setPlace x q .answered).Inv := by
        refine h.leads hq hd { d with done := true } rfl rfl rfl .answered ⟨hat.1, rfl⟩ (fun _ => ⟨rfl, rfl⟩)
          fun next hprec => ?_
        have hdone := hprec.1
        rw [hat.2] at hdone
        cases hdone
      split
      next outcome houtcome =>
        exact hclosed.answer (justified_of_kept (requests_self .answered)
          (discoveries_self x { d with done := true }) hissuer houtcome (Or.inl rfl))
      next => exact h
    | _ => exact h
  | receive x =>
    refine onRequest_inv h fun q hq => ?_
    cases hplace : q.place with
    | waiting f =>
      have hnone : c.discoveries x = none := by
        refine h.no_discovery hq fun d hat => ?_
        rw [hplace] at hat
        exact hat
      obtain ⟨e, he, hissuer⟩ := h.waiting x q f hq hplace
      refine onDiscovery_inv h fun d hd => ?_
      rw [hd] at he
      rw [← Option.some.inj he] at hissuer
      by_cases hdone : d.done = true
      · rw [if_pos hdone]
        cases houtcome : d.outcome with
        | none => exact h
        | some outcome =>
          dsimp only
          cases habandoned : d.abandoned with
          | true => exact h.follows hq hnone fun g hg => by cases hg
          | false =>
            have hanswered := h.answer (justified_of_kept hq hd hissuer houtcome (Or.inr habandoned))
            exact hanswered.follows hq hnone fun g hg => by cases hg
      · rw [if_neg hdone]
        exact h
    | _ => exact h
  | leave x =>
    refine onRequest_inv h fun q hq => ?_
    cases hplace : q.place with
    | waiting f =>
      have hnone : c.discoveries x = none := by
        refine h.no_discovery hq fun d hat => ?_
        rw [hplace] at hat
        exact hat
      dsimp only
      by_cases hcancelled : c.cancelled x = true
      · rw [if_pos hcancelled]
        have hanswered : (c.answer x none).Inv := h.answer hcancelled
        exact hanswered.follows hq hnone fun g hg => by cases hg
      · rw [if_neg hcancelled]
        exact h
    | _ => exact h
  | cancel x =>
    refine { h with answers := fun a ha => ?_ }
    refine (h.answers a ha).mono (fun y q hq => ⟨q, hq, rfl⟩) (fun f d hd _ => ⟨d, hd, rfl, rfl, rfl⟩) fun y hy => ?_
    show Function.update c.cancelled x true y = true
    by_cases hyx : y = x
    · rw [hyx, Function.update_self]
    · rw [Function.update_of_ne hyx]
      exact hy

/-- **Discovery is sound**, however requests, their ends and the clock interleave. -/
theorem discovery_sound (events : List (Event ε π)) : (events.foldl Cache.step (Cache.initial : Cache ε π)).Sound := by
  have h : (events.foldl Cache.step (Cache.initial : Cache ε π)).Inv :=
    along_induction (I := Cache.Inv) (C := fun _ _ => True) (fun _ a hc _ => step_inv hc a) events Cache.Inv.initial
      (along_of_forall events fun _ _ _ => trivial)
  refine { spaced := h.spaced, told := h.told, answers := h.answers, waited := ?_ }
  intro x q f hq hplace
  obtain ⟨d, hd, hissuer⟩ := h.waiting x q f hq hplace
  obtain ⟨leader, hleader, -, hat⟩ := h.led f d hd
  refine ⟨d, hd, hissuer, ?_⟩
  cases hwhere : leader.place with
  | leading => exact Or.inr ⟨leader, hleader, Or.inl hwhere⟩
  | settled => exact Or.inr ⟨leader, hleader, Or.inr hwhere⟩
  | answered =>
    rw [hwhere] at hat
    exact Or.inl ⟨hat.2, hat.1⟩
  | looking =>
    rw [hwhere] at hat
    exact hat.elim
  | waiting g =>
    rw [hwhere] at hat
    exact hat.elim

end

end Momento.OauthDiscovery
