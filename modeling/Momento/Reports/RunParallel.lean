/-
  Momento.Reports.RunParallel

  **THE READS OF ONE REPORT, A FEW AT A TIME.**  `RunParallel` starts a goroutine for
  each step that is there; each waits for one of the tokens or for the end of its context,
  runs, keeps the first error and cancels the rest, and gives the token back:

      take, skip  — the two arms of the `select`
      finish      — `run` returned
      report      — the function given to `once.Do`
      release     — the deferred receive, and `wait.Done`
      return_     — `wait.Wait` is over

  The goroutines and the end of the caller's context (`expire`, and `propagate` to the
  context of the steps) interleave in any order.
-/
import Mathlib.Data.List.ReduceOption
import Momento.Foundation.Runs

namespace Momento.RunParallel

open Foundation

/-! ## §1. Goroutines. -/

/-- Where the goroutine of a step is. -/
inductive Place (ε : Type) where
  | waiting
  | running
  /-- `run` returned an error that is not reported yet. -/
  | failed (error : ε)
  /-- On its way out, with the token. -/
  | leaving (result : Option ε)
  /-- The step was left out: its context ended first. -/
  | skipped
  | ended (result : Option ε)
  deriving DecidableEq

/-- It has a token. -/
def Place.holds {ε : Type} : Place ε → Bool
  | .running => true
  | .failed _ => true
  | .leaving _ => true
  | _ => false

/-- `wait.Done` was called. -/
def Place.over {ε : Type} : Place ε → Bool
  | .skipped => true
  | .ended _ => true
  | _ => false

/-- The error it has reported. -/
def Place.reported {ε : Type} : Place ε → Option ε
  | .leaving result => result
  | .ended result => result
  | _ => none

/-- A step, and where its goroutine is. -/
structure Job (α ε : Type) where
  step : α
  place : Place ε

/-- A call of `RunParallel`. -/
structure Call (α ε : Type) where
  /-- `cap(tokens)`. -/
  limit : Nat
  /-- `len(tokens)`. -/
  tokens : Nat
  jobs : List (Job α ε)
  /-- The context of the steps is done. -/
  stepsDone : Bool
  /-- `ctx.Err()`. -/
  ctxErr : Option ε
  firstErr : Option ε
  /-- What was returned. -/
  returned : Option (Option ε)

/-- What may happen, in any order. -/
inductive Action (ε : Type) where
  | expire (error : ε)
  | propagate
  | take (i : Nat)
  | skip (i : Nat)
  | finish (i : Nat) (result : Option ε)
  | report (i : Nat)
  | release (i : Nat)
  | return_

/-! ## §2. Steps. -/

section
variable {α ε : Type}

/-- `RunParallel`, up to `wait.Wait`: a step that is nil is passed over. -/
def Call.start (limit : Int) (steps : List (Option α)) : Call α ε where
  limit := if limit < 1 then 1 else limit.toNat
  tokens := 0
  jobs := steps.reduceOption.map fun step => ⟨step, .waiting⟩
  stepsDone := false
  ctxErr := none
  firstErr := none
  returned := none

namespace Call
variable (c : Call α ε)

/-- A goroutine goes on. -/
def moveTo (i : Nat) (job : Job α ε) (place : Place ε) : Call α ε :=
  { c with jobs := c.jobs.set i { job with place := place } }

/-- A step of a goroutine that is there. -/
def onJob (i : Nat) (step : Job α ε → Call α ε) : Call α ε :=
  match c.jobs[i]? with
  | some job => step job
  | none => c

/-- **A step.**  What is not possible changes nothing. -/
def step (c : Call α ε) : Action ε → Call α ε
  | .expire error => { c with ctxErr := c.ctxErr.or (some error) }
  | .propagate => if c.ctxErr.isSome then { c with stepsDone := true } else c
  | .take i => c.onJob i fun job =>
    match job.place with
    | .waiting => if c.tokens < c.limit then { c with tokens := c.tokens + 1 }.moveTo i job .running else c
    | _ => c
  | .skip i => c.onJob i fun job =>
    match job.place with
    | .waiting => if c.stepsDone then c.moveTo i job .skipped else c
    | _ => c
  | .finish i result => c.onJob i fun job =>
    match job.place with
    | .running =>
      match result with
      | some error => c.moveTo i job (.failed error)
      | none => c.moveTo i job (.leaving none)
    | _ => c
  | .report i => c.onJob i fun job =>
    match job.place with
    | .failed error =>
      { c with firstErr := c.firstErr.or (some error), stepsDone := true }.moveTo i job (.leaving (some error))
    | _ => c
  | .release i => c.onJob i fun job =>
    match job.place with
    | .leaving result => { c with tokens := c.tokens - 1 }.moveTo i job (.ended result)
    | _ => c
  | .return_ =>
    if c.returned = none ∧ c.jobs.all (·.place.over) then { c with returned := some (c.firstErr.or c.ctxErr) } else c

end Call

/-! ## §3. The invariant. -/

/-- What the call has returned, and why. -/
structure Call.Answered (c : Call α ε) (result : Option ε) : Prop where
  finished : ∀ job ∈ c.jobs, job.place.over = true
  complete : result = none → ∀ job ∈ c.jobs, job.place = .ended none
  cause : ∀ error, result = some error →
    (∃ job ∈ c.jobs, job.place = .ended (some error))
      ∨ c.ctxErr = some error ∧ ∀ job ∈ c.jobs, ∀ other, job.place ≠ .ended (some other)

/-- **The invariant.** -/
structure Call.Inv (c : Call α ε) : Prop where
  limited : 1 ≤ c.limit
  counted : c.jobs.countP (·.place.holds) = c.tokens
  bounded : c.tokens ≤ c.limit
  stopped : c.stepsDone = true → c.firstErr.isSome = true ∨ c.ctxErr.isSome = true
  skipped : ∀ job ∈ c.jobs, job.place = .skipped → c.stepsDone = true
  reported : ∀ job ∈ c.jobs, job.place.reported.isSome = true → c.firstErr.isSome = true
  first : ∀ error, c.firstErr = some error → ∃ job ∈ c.jobs, job.place.reported = some error
  answered : ∀ result, c.returned = some result → c.Answered result

/-- No job has begun. -/
theorem Call.Inv.start (limit : Int) (steps : List (Option α)) : (Call.start limit steps : Call α ε).Inv where
  limited := by
    show 1 ≤ if limit < 1 then 1 else limit.toNat
    split
    · exact Nat.le_refl 1
    · omega
  counted := by
    show List.countP _ (List.map _ _) = 0
    rw [List.countP_map, List.countP_eq_zero]
    intro _ _ h
    cases h
  bounded := Nat.zero_le _
  stopped h := by cases h
  skipped job hjob h := by
    obtain ⟨_, _, rfl⟩ := List.mem_map.mp hjob
    cases h
  reported job hjob h := by
    obtain ⟨_, _, rfl⟩ := List.mem_map.mp hjob
    cases h
  first _ h := by cases h
  answered _ h := by cases h

section
variable {c : Call α ε} {i : Nat} {job : Job α ε} {place : Place ε}

/-- The other goroutines stay where they are. -/
theorem Call.mem_moveTo {other : Job α ε} (h : other ∈ (c.moveTo i job place).jobs) :
    other ∈ c.jobs ∨ other = { job with place := place } :=
  List.mem_or_eq_of_mem_set h

theorem Call.self_mem_moveTo (hjob : c.jobs[i]? = some job) :
    { job with place := place } ∈ (c.moveTo i job place).jobs :=
  List.mem_set (List.getElem?_eq_some_iff.mp hjob).1 _

theorem Call.exists_moveTo (P : Place ε → Prop) (hjob : c.jobs[i]? = some job)
    (h : ∃ other ∈ c.jobs, P other.place) (hkept : P job.place → P place) :
    ∃ other ∈ (c.moveTo i job place).jobs, P other.place := by
  obtain ⟨other, hother, hP⟩ := h
  obtain ⟨k, hk⟩ := List.getElem?_of_mem hother
  by_cases hki : k = i
  · rw [hki, hjob] at hk
    rw [← Option.some.inj hk] at hP
    exact ⟨_, Call.self_mem_moveTo hjob, hkept hP⟩
  · refine ⟨other, List.mem_of_getElem? (i := k) ?_, hP⟩
    exact (List.getElem?_set_ne (Ne.symm hki)).trans hk

theorem Call.countP_moveTo (hjob : c.jobs[i]? = some job) (place : Place ε) :
    (c.moveTo i job place).jobs.countP (·.place.holds) + job.place.holds.toNat
      = c.jobs.countP (·.place.holds) + place.holds.toNat := by
  obtain ⟨hi, hget⟩ := List.getElem?_eq_some_iff.mp hjob
  have hpos : job.place.holds = true → 0 < c.jobs.countP (·.place.holds) := by
    intro h
    exact List.countP_pos_iff.mpr ⟨job, List.mem_of_getElem? hjob, h⟩
  show List.countP _ (c.jobs.set i _) + _ = _
  rw [List.countP_set hi, hget]
  cases hold : job.place.holds with
  | false => cases place.holds <;> simp
  | true =>
    have := hpos hold
    cases place.holds <;> simp <;> omega

/-- **A goroutine moves on.** -/
theorem Call.Inv.moveTo (h : c.Inv) (hjob : c.jobs[i]? = some job) (hover : job.place.over = false)
    {tokens : Nat} {firstErr : Option ε} {stepsDone : Bool}
    (htokens : tokens + job.place.holds.toNat = c.tokens + place.holds.toNat) (hbounded : tokens ≤ c.limit)
    (hfirst : c.firstErr.isSome = true → firstErr = c.firstErr)
    (hnew : ∀ error, firstErr = some error → c.firstErr = some error ∨ place.reported = some error)
    (hkept : ∀ error, job.place.reported = some error → place.reported = some error)
    (hreported : place.reported.isSome = true → firstErr.isSome = true)
    (hdone : c.stepsDone = true → stepsDone = true)
    (hstopped : stepsDone = true → c.stepsDone = true ∨ firstErr.isSome = true)
    (hskipped : place = .skipped → stepsDone = true) :
    ({ c with tokens := tokens, firstErr := firstErr, stepsDone := stepsDone }.moveTo i job place).Inv := by
  have hstays : c.firstErr.isSome = true → firstErr.isSome = true := by
    intro hsome
    rw [hfirst hsome]
    exact hsome
  constructor
  · exact h.limited
  · have hcount := Call.countP_moveTo hjob place
    have hcounted := h.counted
    show (c.moveTo i job place).jobs.countP (·.place.holds) = tokens
    omega
  · exact hbounded
  · intro hd
    cases hstopped hd with
    | inl hbefore => exact (h.stopped hbefore).imp_left hstays
    | inr hsome => exact Or.inl hsome
  · intro other hother hplace
    cases Call.mem_moveTo hother with
    | inl hbefore => exact hdone (h.skipped other hbefore hplace)
    | inr heq =>
      rw [heq] at hplace
      exact hskipped hplace
  · intro other hother hsome
    cases Call.mem_moveTo hother with
    | inl hbefore => exact hstays (h.reported other hbefore hsome)
    | inr heq =>
      rw [heq] at hsome
      exact hreported hsome
  · intro error herror
    cases hnew error herror with
    | inl hbefore =>
      exact Call.exists_moveTo (fun place => place.reported = some error) hjob (h.first error hbefore) (hkept error)
    | inr hplace => exact ⟨_, Call.self_mem_moveTo hjob, hplace⟩
  · intro result hresult
    have hended := (h.answered result hresult).finished job (List.mem_of_getElem? hjob)
    rw [hover] at hended
    cases hended

end

/-! ## §4. Every step. -/

/-- A job that is there. -/
theorem Call.onJob_inv {c : Call α ε} (h : c.Inv) {i : Nat} {step : Job α ε → Call α ε}
    (hstep : ∀ job, c.jobs[i]? = some job → (step job).Inv) : (c.onJob i step).Inv := by
  unfold Call.onJob
  cases hjob : c.jobs[i]? with
  | none => exact h
  | some job => exact hstep job hjob

/-- **Each step keeps the invariant.** -/
theorem step_inv {c : Call α ε} (h : c.Inv) (a : Action ε) : (c.step a).Inv := by
  cases a with
  | expire error =>
    refine { h with stopped := ?_, answered := ?_ }
    · intro hd
      refine (h.stopped hd).imp_right fun hsome => ?_
      show (c.ctxErr.or (some error)).isSome = true
      cases c.ctxErr <;> rfl
    · intro result hresult
      have hold := h.answered result hresult
      refine ⟨hold.finished, hold.complete, fun e he => ?_⟩
      refine (hold.cause e he).imp_right fun hctx => ⟨?_, hctx.2⟩
      show c.ctxErr.or (some error) = some e
      rw [hctx.1]
      rfl
  | propagate =>
    show (if c.ctxErr.isSome then { c with stepsDone := true } else c).Inv
    by_cases hexpired : c.ctxErr.isSome = true
    · rw [if_pos hexpired]
      exact { h with stopped := fun _ => Or.inr hexpired, skipped := fun _ _ _ => rfl
                     answered := fun result hresult =>
                      ⟨(h.answered result hresult).finished, (h.answered result hresult).complete,
                        (h.answered result hresult).cause⟩ }
    · rw [if_neg hexpired]
      exact h
  | take i =>
    refine Call.onJob_inv h fun job hjob => ?_
    cases hplace : job.place with
    | waiting =>
      dsimp only
      by_cases hfree : c.tokens < c.limit
      · rw [if_pos hfree]
        exact h.moveTo hjob (by rw [hplace]; rfl) (by rw [hplace]; rfl) hfree (fun _ => rfl) (fun _ he => Or.inl he)
          (fun e he => by rw [hplace] at he; cases he) (fun he => by cases he) (fun hd => hd) Or.inl
          (fun hskip => by cases hskip)
      · rw [if_neg hfree]
        exact h
    | _ => exact h
  | skip i =>
    refine Call.onJob_inv h fun job hjob => ?_
    cases hplace : job.place with
    | waiting =>
      dsimp only
      by_cases hdone : c.stepsDone = true
      · rw [if_pos hdone]
        exact h.moveTo hjob (by rw [hplace]; rfl) (by rw [hplace]; rfl) h.bounded (fun _ => rfl)
          (fun _ he => Or.inl he) (fun e he => by rw [hplace] at he; cases he) (fun he => by cases he)
          (fun hd => hd) Or.inl (fun _ => hdone)
      · rw [if_neg hdone]
        exact h
    | _ => exact h
  | finish i result =>
    refine Call.onJob_inv h fun job hjob => ?_
    cases hplace : job.place with
    | running =>
      cases result with
      | some error =>
        exact h.moveTo hjob (by rw [hplace]; rfl) (by rw [hplace]; rfl) h.bounded (fun _ => rfl)
          (fun _ he => Or.inl he) (fun e he => by rw [hplace] at he; cases he) (fun he => by cases he)
          (fun hd => hd) Or.inl (fun hskip => by cases hskip)
      | none =>
        exact h.moveTo hjob (by rw [hplace]; rfl) (by rw [hplace]; rfl) h.bounded (fun _ => rfl)
          (fun _ he => Or.inl he) (fun e he => by rw [hplace] at he; cases he) (fun he => by cases he)
          (fun hd => hd) Or.inl (fun hskip => by cases hskip)
    | _ => exact h
  | report i =>
    refine Call.onJob_inv h fun job hjob => ?_
    cases hplace : job.place with
    | failed error =>
      have hsome : (c.firstErr.or (some error)).isSome = true := by cases c.firstErr <;> rfl
      refine h.moveTo hjob (by rw [hplace]; rfl) (by rw [hplace]; rfl) h.bounded ?_ ?_
        (fun e he => by rw [hplace] at he; cases he) (fun _ => hsome) (fun _ => rfl) (fun _ => Or.inr hsome)
        (fun _ => rfl)
      · -- the first error stays the first
        intro hfirst
        obtain ⟨first, heq⟩ := Option.isSome_iff_exists.mp hfirst
        rw [heq]
        rfl
      · intro e he
        cases hfirst : c.firstErr with
        | none =>
          rw [hfirst] at he
          exact Or.inr he
        | some first =>
          rw [hfirst] at he
          exact Or.inl he
    | _ => exact h
  | release i =>
    refine Call.onJob_inv h fun job hjob => ?_
    cases hplace : job.place with
    | leaving result =>
      -- it has a token to give back
      have hheld : 0 < c.tokens := by
        rw [← h.counted]
        exact List.countP_pos_iff.mpr ⟨job, List.mem_of_getElem? hjob, by rw [hplace]; rfl⟩
      refine h.moveTo hjob (by rw [hplace]; rfl) ?_ (Nat.le_trans (Nat.sub_le _ _) h.bounded) (fun _ => rfl)
        (fun _ he => Or.inl he) (fun e he => by rw [hplace] at he; exact he) ?_ (fun hd => hd) Or.inl
        (fun hskip => by cases hskip)
      · rw [hplace]
        show c.tokens - 1 + 1 = c.tokens + 0
        omega
      · intro hsome
        refine h.reported job (List.mem_of_getElem? hjob) ?_
        rw [hplace]
        exact hsome
    | _ => exact h
  | return_ =>
    show (if c.returned = none ∧ c.jobs.all (·.place.over) then _ else c).Inv
    by_cases hover : c.returned = none ∧ c.jobs.all (·.place.over) = true
    · rw [if_pos hover]
      refine { h with answered := ?_ }
      intro result hresult
      have hresult : c.firstErr.or c.ctxErr = result := Option.some.inj hresult
      have hall : ∀ job ∈ c.jobs, job.place.over = true := List.all_eq_true.mp hover.2
      refine ⟨hall, fun hnone job hjob => ?_, fun error herror => ?_⟩
      · obtain ⟨hfirst, hctx⟩ := Option.or_eq_none_iff.mp (hresult.trans hnone)
        have hkeep : c.stepsDone = true → False := by
          intro hdone
          have hwhy := h.stopped hdone
          rw [hfirst, hctx] at hwhy
          cases hwhy with
          | inl hsome => cases hsome
          | inr hsome => cases hsome
        cases hplace : job.place with
        | skipped => exact absurd (h.skipped job hjob hplace) hkeep
        | ended r =>
          cases r with
          | none => rfl
          | some error =>
            have hsome := h.reported job hjob (by rw [hplace]; rfl)
            rw [hfirst] at hsome
            cases hsome
        | _ =>
          have hended := hall job hjob
          rw [hplace] at hended
          cases hended
      · cases hfirst : c.firstErr with
        | some first =>
          rw [hfirst, herror] at hresult
          obtain ⟨job, hjob, hrep⟩ := h.first first hfirst
          refine Or.inl ⟨job, hjob, ?_⟩
          have hended := hall job hjob
          cases hplace : job.place with
          | ended r =>
            rw [hplace] at hrep
            exact congrArg Place.ended (hrep.trans hresult)
          | skipped =>
            rw [hplace] at hrep
            cases hrep
          | _ =>
            rw [hplace] at hended
            cases hended
        | none =>
          rw [hfirst, herror] at hresult
          refine Or.inr ⟨hresult, fun job hjob other hother => ?_⟩
          have hsome := h.reported job hjob (by rw [hother]; rfl)
          rw [hfirst] at hsome
          cases hsome
    · rw [if_neg hover]
      exact h

/-! ## §5. What a caller gets. -/

/-- Not the caller's doing. -/
def Action.own : Action ε → Bool
  | .expire _ => false
  | _ => true

/-- **What `RunParallel` guarantees**, for the steps that are there. -/
structure Call.Sound (limit : Int) (steps : List (Option α)) (c : Call α ε) : Prop where
  /-- Each step has one goroutine. -/
  jobs : c.jobs.map Job.step = steps.reduceOption
  bounded : (c.jobs.countP (·.place.holds) : Int) ≤ max 1 limit
  answered : ∀ result, c.returned = some result → c.Answered result
  /-- Until it returns, it can go on. -/
  proceeds : c.returned = none → ∃ a : Action ε, a.own = true ∧ c.step a ≠ c

theorem jobs_moveTo {c : Call α ε} {i : Nat} {job : Job α ε} (hjob : c.jobs[i]? = some job) (place : Place ε) :
    (c.moveTo i job place).jobs.map Job.step = c.jobs.map Job.step := by
  show (c.jobs.set i _).map Job.step = _
  rw [List.map_set]
  apply List.ext_getElem?
  intro k
  by_cases hk : i = k
  · rw [← hk, List.getElem?_set]
    obtain ⟨hi, hget⟩ := List.getElem?_eq_some_iff.mp hjob
    simp [hi, hget]
  · rw [List.getElem?_set_ne hk]

/-- No step changes which goroutines there are, or how many may run. -/
theorem step_frame (c : Call α ε) (a : Action ε) :
    (c.step a).limit = c.limit ∧ (c.step a).jobs.map Job.step = c.jobs.map Job.step := by
  have hon : ∀ (i : Nat) (step : Job α ε → Call α ε),
      (∀ job, c.jobs[i]? = some job →
        (step job).limit = c.limit ∧ (step job).jobs.map Job.step = c.jobs.map Job.step) →
      (c.onJob i step).limit = c.limit ∧ (c.onJob i step).jobs.map Job.step = c.jobs.map Job.step := by
    intro i step hstep
    unfold Call.onJob
    cases hjob : c.jobs[i]? with
    | none => exact ⟨rfl, rfl⟩
    | some job => exact hstep job hjob
  cases a with
  | expire error => exact ⟨rfl, rfl⟩
  | propagate =>
    have hstep : c.step .propagate = if c.ctxErr.isSome then { c with stepsDone := true } else c := rfl
    rw [hstep]
    split <;> exact ⟨rfl, rfl⟩
  | return_ =>
    have hstep : c.step .return_ = if c.returned = none ∧ c.jobs.all (·.place.over) then
        { c with returned := some (c.firstErr.or c.ctxErr) } else c := rfl
    rw [hstep]
    split <;> exact ⟨rfl, rfl⟩
  | take i =>
    refine hon i _ fun job hjob => ?_
    cases job.place with
    | waiting =>
      dsimp only
      split
      · exact ⟨rfl, jobs_moveTo (c := { c with tokens := c.tokens + 1 }) hjob _⟩
      · exact ⟨rfl, rfl⟩
    | _ => exact ⟨rfl, rfl⟩
  | skip i =>
    refine hon i _ fun job hjob => ?_
    cases job.place with
    | waiting =>
      dsimp only
      split
      · exact ⟨rfl, jobs_moveTo hjob _⟩
      · exact ⟨rfl, rfl⟩
    | _ => exact ⟨rfl, rfl⟩
  | finish i result =>
    refine hon i _ fun job hjob => ?_
    cases job.place with
    | running =>
      cases result with
      | some error => exact ⟨rfl, jobs_moveTo hjob _⟩
      | none => exact ⟨rfl, jobs_moveTo hjob _⟩
    | _ => exact ⟨rfl, rfl⟩
  | report i =>
    refine hon i _ fun job hjob => ?_
    cases job.place with
    | failed error => exact ⟨rfl, jobs_moveTo (c := { c with firstErr := _, stepsDone := true }) hjob _⟩
    | _ => exact ⟨rfl, rfl⟩
  | release i =>
    refine hon i _ fun job hjob => ?_
    cases job.place with
    | leaving result => exact ⟨rfl, jobs_moveTo (c := { c with tokens := c.tokens - 1 }) hjob _⟩
    | _ => exact ⟨rfl, rfl⟩

/-- A goroutine that moves changes the state. -/
theorem moveTo_ne {c c' : Call α ε} {i : Nat} {job : Job α ε} (hjob : c.jobs[i]? = some job) (hjobs : c'.jobs = c.jobs)
    {place : Place ε} (hplace : place ≠ job.place) : c'.moveTo i job place ≠ c := by
  intro heq
  have hat : (c'.moveTo i job place).jobs[i]? = c.jobs[i]? := by rw [heq]
  have hnew : (c'.moveTo i job place).jobs[i]? = some { job with place := place } := by
    obtain ⟨hi, -⟩ := List.getElem?_eq_some_iff.mp hjob
    show (c'.jobs.set i _)[i]? = _
    rw [hjobs, List.getElem?_set_self hi]
  rw [hnew, hjob] at hat
  exact hplace (congrArg Job.place (Option.some.inj hat))

theorem onJob_eq {c : Call α ε} {i : Nat} {job : Job α ε} (hjob : c.jobs[i]? = some job) (step : Job α ε → Call α ε) :
    c.onJob i step = step job := by
  unfold Call.onJob
  rw [hjob]

/-- A goroutine with a token can move. -/
theorem holder_moves {c : Call α ε} {job : Job α ε} (hjob : job ∈ c.jobs) (hholds : job.place.holds = true) :
    ∃ a : Action ε, a.own = true ∧ c.step a ≠ c := by
  obtain ⟨i, hi⟩ := List.getElem?_of_mem hjob
  cases hplace : job.place with
  | running =>
    refine ⟨.finish i none, rfl, ?_⟩
    show c.onJob i _ ≠ c
    rw [onJob_eq hi, hplace]
    dsimp only
    refine moveTo_ne hi ?_ ?_
    · rfl
    · rw [hplace]
      intro h
      cases h
  | failed error =>
    refine ⟨.report i, rfl, ?_⟩
    show c.onJob i _ ≠ c
    rw [onJob_eq hi, hplace]
    dsimp only
    refine moveTo_ne hi ?_ ?_
    · rfl
    · rw [hplace]
      intro h
      cases h
  | leaving result =>
    refine ⟨.release i, rfl, ?_⟩
    show c.onJob i _ ≠ c
    rw [onJob_eq hi, hplace]
    dsimp only
    refine moveTo_ne hi ?_ ?_
    · rfl
    · rw [hplace]
      intro h
      cases h
  | _ =>
    rw [hplace] at hholds
    cases hholds

/-- A job can go on until the call returns. -/
theorem Call.Inv.proceeds {c : Call α ε} (h : c.Inv) (hreturned : c.returned = none) :
    ∃ a : Action ε, a.own = true ∧ c.step a ≠ c := by
  by_cases hall : c.jobs.all (·.place.over) = true
  · refine ⟨.return_, rfl, fun heq => ?_⟩
    have hstep : (c.step .return_).returned = none := by
      rw [heq]
      exact hreturned
    have hanswer : c.step .return_ = { c with returned := some (c.firstErr.or c.ctxErr) } := if_pos ⟨hreturned, hall⟩
    rw [hanswer] at hstep
    cases hstep
  · obtain ⟨job, hjob, hover⟩ : ∃ job ∈ c.jobs, job.place.over = false := by
      by_contra hnone
      apply hall
      refine List.all_eq_true.mpr fun job hjob => ?_
      by_contra hover
      exact hnone ⟨job, hjob, eq_false_of_ne_true hover⟩
    cases hplace : job.place with
    | waiting =>
      by_cases hfree : c.tokens < c.limit
      · obtain ⟨i, hi⟩ := List.getElem?_of_mem hjob
        refine ⟨.take i, rfl, ?_⟩
        show c.onJob i _ ≠ c
        rw [onJob_eq hi, hplace]
        dsimp only
        rw [if_pos hfree]
        refine moveTo_ne hi ?_ ?_
        · rfl
        · rw [hplace]
          intro h
          cases h
      · -- all tokens are taken, so somebody has one
        have hlimited := h.limited
        have hsome : 0 < c.jobs.countP (·.place.holds) := by
          rw [h.counted]
          omega
        obtain ⟨holder, hmem, hholds⟩ := List.countP_pos_iff.mp hsome
        exact holder_moves hmem hholds
    | running => exact holder_moves hjob (by rw [hplace]; rfl)
    | failed error => exact holder_moves hjob (by rw [hplace]; rfl)
    | leaving result => exact holder_moves hjob (by rw [hplace]; rfl)
    | skipped =>
      rw [hplace] at hover
      cases hover
    | ended result =>
      rw [hplace] at hover
      cases hover

/-- **`RunParallel` is sound**, however its goroutines and its caller interleave. -/
theorem runParallel_sound (limit : Int) (steps : List (Option α)) (actions : List (Action ε)) :
    (actions.foldl Call.step (Call.start limit steps)).Sound limit steps := by
  have hrun : (actions.foldl Call.step (Call.start limit steps)).Inv
      ∧ (actions.foldl Call.step (Call.start limit steps)).limit = (Call.start limit steps : Call α ε).limit
      ∧ (actions.foldl Call.step (Call.start limit steps)).jobs.map Job.step = steps.reduceOption := by
    refine along_induction (C := fun _ _ => True) (I := fun c : Call α ε => c.Inv
      ∧ c.limit = (Call.start limit steps : Call α ε).limit ∧ c.jobs.map Job.step = steps.reduceOption)
      (fun c a h _ => ?_) actions ⟨Call.Inv.start limit steps, rfl, ?_⟩ (along_of_forall actions fun _ _ _ => trivial)
    · obtain ⟨hinv, hlimit, hjobs⟩ := h
      obtain ⟨hkept, hsame⟩ := step_frame c a
      exact ⟨step_inv hinv a, hkept.trans hlimit, hsame.trans hjobs⟩
    · show List.map _ (List.map _ _) = _
      rw [List.map_map]
      exact List.map_id _
  obtain ⟨hinv, hlimit, hjobs⟩ := hrun
  refine ⟨hjobs, ?_, hinv.answered, hinv.proceeds⟩
  have hmost : ((Call.start limit steps : Call α ε).limit : Int) = max 1 limit := by
    show ((if limit < 1 then 1 else limit.toNat : Nat) : Int) = _
    split <;> omega
  rw [hinv.counted, ← hmost, ← hlimit]
  exact_mod_cast hinv.bounded

end

end Momento.RunParallel
