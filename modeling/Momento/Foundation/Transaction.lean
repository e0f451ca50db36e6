/-
  Momento.Foundation.Transaction

  **TRANSACTION BODIES.**  A body sends statements one after the other over one
  connection.  A statement that fails does two things at once: it hands an error
  to the program, and it ABORTS the server side of the transaction, after which
  every further statement fails too until somebody rolls back.  The program may
  look at the error (`exec`) or drop it (`attempt`); the server does not care
  which, so the state carries the aborted mark apart from the program's result.

  `faults` is what the environment answers to the coming statements (deadlock
  victim, timeout, lost connection); an exhausted list means no more faults.

  Two facts hold of every body and are fields of the type, so no later proof
  restates them:

      sticky     — an aborted transaction stays aborted
      faultless  — a body that ends healthy met no fault: it did exactly what
                   it does when nothing fails

  A dropped error is dangerous only at the end of a body; §3 has the rules for
  showing that a body never ends so by itself.  §4 has those for showing that a
  part of the database is nothing to a body.
-/

namespace Foundation

/-- What a client error type must be able to say. -/
class SqlError (E : Type) where
  /-- The answer to a statement sent into an aborted transaction. -/
  inFailedTransaction : E

/-- The server's side of an open transaction; `db = none` is "aborted". -/
structure TxState (D E : Type) where
  db : Option D
  faults : List (Option E)

/-- A transaction body over the database `D`, failing with `E`. -/
structure Tx (D E α : Type) where
  run : TxState D E → Except E α × TxState D E
  sticky : ∀ s, s.db = none → (run s).2.db = none
  faultless : ∀ d fs a d' fs',
    run ⟨some d, fs⟩ = (.ok a, ⟨some d', fs'⟩) → run ⟨some d, []⟩ = (.ok a, ⟨some d', []⟩)

namespace Tx

variable {D E α β : Type}

/-- The body ends without error in a healthy transaction that holds `d'`. -/
def Commits (m : Tx D E α) (d : D) (a : α) (d' : D) : Prop :=
  m.run ⟨some d, []⟩ = (.ok a, ⟨some d', []⟩)

/-! ## §1. Composition. -/

/-- An answer without a statement. -/
protected def pure (a : α) : Tx D E α where
  run s := (.ok a, s)
  sticky _ h := h
  faultless d fs b d' fs' h := by
    simp only [Prod.mk.injEq, TxState.mk.injEq, Option.some.injEq, and_true] at h ⊢
    exact ⟨h.1, h.2.1⟩

/-- The program gives up by itself, without a statement having failed. -/
def fail (e : E) : Tx D E α where
  run s := (.error e, s)
  sticky _ h := h
  faultless d fs b d' fs' h := by simp at h

/-- What `bind` does with the first body's answer. -/
def bindRun (k : α → Tx D E β) : Except E α × TxState D E → Except E β × TxState D E
  | (.ok a, t) => (k a).run t
  | (.error e, t) => (.error e, t)

theorem bindRun_sticky (k : α → Tx D E β) (r : Except E α × TxState D E)
    (h : r.2.db = none) : (bindRun k r).2.db = none := by
  obtain ⟨r, t⟩ := r
  cases r with
  | ok a => exact (k a).sticky t h
  | error e => exact h

/-- A composite that ends healthy had a healthy state in the middle. -/
theorem bindRun_healthy (k : α → Tx D E β) (r : Except E α × TxState D E) {b : β} {d' : D}
    {fs' : List (Option E)} (h : bindRun k r = (.ok b, ⟨some d', fs'⟩)) :
    ∃ a u fs, r = (.ok a, ⟨some u, fs⟩) ∧ (k a).run ⟨some u, fs⟩ = (.ok b, ⟨some d', fs'⟩) := by
  obtain ⟨r, ⟨db, fs⟩⟩ := r
  cases r with
  | error e => simp [bindRun] at h
  | ok a =>
    cases db with
    | none =>
      have hs := bindRun_sticky k (.ok a, ⟨none, fs⟩) rfl
      rw [h] at hs
      simp at hs
    | some u => exact ⟨a, u, fs, rfl, h⟩

/-- One program after the other. -/
protected def bind (m : Tx D E α) (k : α → Tx D E β) : Tx D E β where
  run s := bindRun k (m.run s)
  sticky s h := bindRun_sticky k _ (m.sticky s h)
  faultless d fs b d' fs' h := by
    obtain ⟨a, u, fs₁, hm, hk⟩ := bindRun_healthy k _ h
    show bindRun k (m.run ⟨some d, []⟩) = _
    rw [m.faultless d fs a u fs₁ hm]
    exact (k a).faultless u fs₁ b d' fs' hk

instance : Monad (Tx D E) where
  pure := Tx.pure
  bind := Tx.bind

@[simp] theorem commits_pure {a b : α} {d d' : D} :
    (pure a : Tx D E α).Commits d b d' ↔ b = a ∧ d' = d := by
  show (Except.ok a, (⟨some d, []⟩ : TxState D E)) = _ ↔ _
  simp only [Prod.mk.injEq, Except.ok.injEq, TxState.mk.injEq, Option.some.injEq, and_true]
  exact ⟨fun h => ⟨h.1.symm, h.2.symm⟩, fun h => ⟨h.1.symm, h.2.symm⟩⟩

@[simp] theorem commits_fail {e : E} {b : α} {d d' : D} :
    (fail e : Tx D E α).Commits d b d' ↔ False := by
  simp [Commits, fail]

/-- **The composition rule**: a sequence commits when its parts do, one after
the other. -/
@[simp] theorem commits_bind {m : Tx D E α} {k : α → Tx D E β} {b : β} {d d' : D} :
    (m >>= k).Commits d b d' ↔ ∃ a u, m.Commits d a u ∧ (k a).Commits u b d' := by
  constructor
  · intro h
    obtain ⟨a, u, fs, hm, hk⟩ := bindRun_healthy k (m.run ⟨some d, []⟩) h
    exact ⟨a, u, m.faultless d [] a u fs hm, (k a).faultless u fs b d' [] hk⟩
  · rintro ⟨a, u, hm, hk⟩
    show bindRun k (m.run ⟨some d, []⟩) = _
    rw [hm]
    exact hk

/-- A run commits one result. -/
theorem Commits.unique {m : Tx D E α} {a b : α} {d d₁ d₂ : D}
    (h₁ : m.Commits d a d₁) (h₂ : m.Commits d b d₂) : a = b ∧ d₁ = d₂ := by
  have h := h₁.symm.trans h₂
  simp only [Prod.mk.injEq, Except.ok.injEq, TxState.mk.injEq, Option.some.injEq,
    and_true] at h
  exact h

/-! ## §2. Statements. -/

section Statements
variable [SqlError E]

/-- The server after it evaluated a statement. -/
def reply : Except E (α × D) → List (Option E) → Except E α × TxState D E
  | .ok (a, d), fs => (.ok a, ⟨some d, fs⟩)
  | .error e, fs => (.error e, ⟨none, fs⟩)

/-- What the server answers to the statement `f`. -/
def answer (f : D → Except E (α × D)) : TxState D E → Except E α × TxState D E
  | ⟨none, fs⟩ => (.error SqlError.inFailedTransaction, ⟨none, fs.tail⟩)
  | ⟨some _, some e :: fs⟩ => (.error e, ⟨none, fs⟩)
  | ⟨some d, none :: fs⟩ => reply (f d) fs
  | ⟨some d, []⟩ => reply (f d) []

theorem answer_sticky (f : D → Except E (α × D)) (s : TxState D E) (h : s.db = none) :
    (answer f s).2.db = none := by
  obtain ⟨db, fs⟩ := s
  subst h
  rfl

omit [SqlError E] in
theorem reply_healthy {r : Except E (α × D)} {d' : D} {fs : List (Option E)}
    (h : (reply r fs).2.db = some d') : ∃ a, (reply r fs).1 = .ok a ∧ r = .ok (a, d') := by
  cases r with
  | error e => simp [reply] at h
  | ok p =>
    obtain ⟨a, d⟩ := p
    simp only [reply, Option.some.injEq] at h
    exact ⟨a, rfl, by rw [h]⟩

/-- A statement after which the transaction is healthy succeeded. -/
theorem answer_healthy (f : D → Except E (α × D)) {d d' : D} {fs : List (Option E)}
    (h : (answer f ⟨some d, fs⟩).2.db = some d') :
    ∃ a, (answer f ⟨some d, fs⟩).1 = .ok a ∧ f d = .ok (a, d') := by
  cases fs with
  | nil => exact reply_healthy h
  | cons x fs =>
    cases x with
    | none => exact reply_healthy h
    | some e => simp [answer] at h

theorem answer_nil (f : D → Except E (α × D)) {d d' : D} {a : α} (h : f d = .ok (a, d')) :
    answer f ⟨some d, []⟩ = (.ok a, ⟨some d', []⟩) := by
  simp [answer, reply, h]

/-- Send a statement and look at its error. -/
def exec (f : D → Except E (α × D)) : Tx D E α where
  run := answer f
  sticky := answer_sticky f
  faultless d fs a d' fs' h := by
    obtain ⟨a', ha, hf⟩ := answer_healthy f (show (answer f ⟨some d, fs⟩).2.db = some d' by rw [h])
    rw [h] at ha
    obtain rfl : a = a' := Except.ok.inj ha
    exact answer_nil f hf

/-- Send a statement and drop its error (`_, _ = tx.Exec(…)`). -/
def attempt (f : D → Except E (α × D)) : Tx D E (Option α) where
  run s := ((.ok (answer f s).1.toOption), (answer f s).2)
  sticky := answer_sticky f
  faultless d fs a d' fs' h := by
    simp only [Prod.mk.injEq, Except.ok.injEq] at h
    obtain ⟨a', ha, hf⟩ := answer_healthy f (show (answer f ⟨some d, fs⟩).2.db = some d' by rw [h.2])
    rw [answer_nil f hf, ← h.1, ha]

@[simp] theorem commits_exec {f : D → Except E (α × D)} {a : α} {d d' : D} :
    (exec f).Commits d a d' ↔ f d = .ok (a, d') := by
  constructor
  · intro h
    have h' : answer f ⟨some d, []⟩ = (.ok a, ⟨some d', []⟩) := h
    obtain ⟨a', ha, hf⟩ := answer_healthy f (show (answer f ⟨some d, []⟩).2.db = some d' by rw [h'])
    rw [h'] at ha
    obtain rfl : a = a' := Except.ok.inj ha
    exact hf
  · exact answer_nil f

@[simp] theorem commits_attempt {f : D → Except E (α × D)} {x : Option α} {d d' : D} :
    (attempt f).Commits d x d' ↔ ∃ a, x = some a ∧ f d = .ok (a, d') := by
  constructor
  · intro h
    simp only [Commits, attempt, Prod.mk.injEq, Except.ok.injEq] at h
    obtain ⟨a, ha, hf⟩ := answer_healthy f (show (answer f ⟨some d, []⟩).2.db = some d' by rw [h.2])
    refine ⟨a, ?_, hf⟩
    rw [← h.1, ha]
    rfl
  · rintro ⟨a, rfl, hf⟩
    simp only [Commits, attempt]
    rw [answer_nil f hf]
    rfl

/-- A statement that cannot fail by itself. -/
abbrev update (f : D → D) : Tx D E Unit := exec (fun d => .ok ((), f d))

/-- A read that cannot fail by itself. -/
abbrev select (f : D → α) : Tx D E α := exec (fun d => .ok (f d, d))

end Statements

/-! ## §3. Errors that are dropped.

A body that drops the error of its last statement can end without error in an
aborted transaction.  Met with no fault, an HONEST body does not; a body is
honest when what may abort in it unnoticed is followed by a STRICT part, one that
reports an aborted transaction. -/

/-- Without faults, no error means a healthy transaction. -/
def Honest (m : Tx D E α) : Prop :=
  ∀ d a t, m.run ⟨some d, []⟩ = (.ok a, t) → t.db ≠ none

/-- An aborted transaction makes the body fail. -/
def Strict (m : Tx D E α) : Prop := ∀ s, s.db = none → ∃ e, (m.run s).1 = .error e

theorem honest_pure (a : α) : Honest (pure a : Tx D E α) := by
  intro d b t h
  obtain ⟨-, rfl⟩ := Prod.mk.inj h
  simp

theorem honest_fail (e : E) : Honest (fail e : Tx D E α) := by
  intro d b t h
  cases h

/-- Honest steps in turn. -/
theorem honest_bind {m : Tx D E α} {k : α → Tx D E β} (hm : Honest m ∨ ∀ a, Strict (k a))
    (hk : ∀ a, Honest (k a)) : Honest (m >>= k) := by
  intro d b t h
  have hrun : bindRun k (m.run ⟨some d, []⟩) = (.ok b, t) := h
  rcases hfirst : m.run ⟨some d, []⟩ with ⟨e | a, ⟨db, fs⟩⟩
  · rw [hfirst] at hrun
    cases hrun
  · rw [hfirst] at hrun
    have hnext : (k a).run ⟨db, fs⟩ = (.ok b, t) := hrun
    cases db with
    | some u =>
      have hfaults : fs = [] := by
        have hclean := m.faultless d [] a u fs hfirst
        rw [hfirst] at hclean
        exact (TxState.mk.inj (Prod.mk.inj hclean).2).2
      rw [hfaults] at hnext
      exact hk a u b t hnext
    | none =>
      rcases hm with hm | hm
      · exact absurd rfl (hm d a ⟨none, fs⟩ hfirst)
      · obtain ⟨e, he⟩ := hm a ⟨none, fs⟩ rfl
        rw [hnext] at he
        cases he

/-- The first step is enough. -/
theorem strict_bind_left {m : Tx D E α} (k : α → Tx D E β) (h : Strict m) : Strict (m >>= k) := by
  intro s hs
  obtain ⟨e, he⟩ := h s hs
  refine ⟨e, ?_⟩
  show (bindRun k (m.run s)).1 = _
  rcases hrun : m.run s with ⟨r, t⟩
  rw [hrun] at he
  subst he
  rfl

theorem strict_bind_right (m : Tx D E α) {k : α → Tx D E β} (h : ∀ a, Strict (k a)) :
    Strict (m >>= k) := by
  intro s hs
  have hsticky := m.sticky s hs
  show ∃ e, (bindRun k (m.run s)).1 = .error e
  rcases hrun : m.run s with ⟨e | a, t⟩
  · exact ⟨e, rfl⟩
  · rw [hrun] at hsticky
    exact h a t hsticky

section Statements
variable [SqlError E]

/-- A statement is honest. -/
theorem honest_exec (f : D → Except E (α × D)) : Honest (exec f) := by
  intro d a t h
  have hrun : reply (f d) [] = (.ok a, t) := h
  cases hf : f d with
  | error e =>
    rw [hf] at hrun
    cases hrun
  | ok p =>
    rw [hf] at hrun
    obtain ⟨-, rfl⟩ := Prod.mk.inj hrun
    simp

/-- A statement is strict. -/
theorem strict_exec (f : D → Except E (α × D)) : Strict (exec f) := by
  rintro ⟨db, fs⟩ rfl
  exact ⟨_, rfl⟩

/-- Dropping the error of a statement that cannot fail by itself is harmless. -/
theorem honest_attempt (f : D → α × D) : Honest (attempt (E := E) fun d => .ok (f d)) := by
  intro d a t h
  obtain ⟨-, rfl⟩ := Prod.mk.inj h
  simp [answer, reply]

end Statements

/-! ## §4. Parts a body does not see. -/

/-- An answer, with the database it leaves changed by `g`. -/
def changed (g : D → D) (r : Except E α × TxState D E) : Except E α × TxState D E :=
  (r.1, ⟨r.2.db.map g, r.2.faults⟩)

/-- The body does the same whether `g` has changed the database before or after:
it neither reads nor writes what `g` touches. -/
def Blind (g : D → D) (m : Tx D E α) : Prop :=
  ∀ db fs, m.run ⟨db.map g, fs⟩ = changed g (m.run ⟨db, fs⟩)

variable {g : D → D}

theorem blind_pure (a : α) : Blind g (pure a : Tx D E α) := fun _ _ => rfl

theorem blind_fail (e : E) : Blind g (fail e : Tx D E α) := fun _ _ => rfl

/-- Blind steps in turn. -/
theorem blind_bind {m : Tx D E α} {k : α → Tx D E β} (hm : Blind g m) (hk : ∀ a, Blind g (k a)) :
    Blind g (m >>= k) := by
  intro db fs
  show bindRun k (m.run ⟨db.map g, fs⟩) = changed g (bindRun k (m.run ⟨db, fs⟩))
  rw [hm db fs]
  rcases m.run ⟨db, fs⟩ with ⟨e | a, ⟨u, gs⟩⟩
  · rfl
  · exact hk a u gs

section Statements
variable [SqlError E] {f : D → Except E (α × D)}

theorem answer_blind (h : ∀ d, f (g d) = (f d).map (Prod.map id g)) (db : Option D)
    (fs : List (Option E)) :
    answer f ⟨db.map g, fs⟩ = changed g (answer f ⟨db, fs⟩) := by
  have hreply : ∀ d gs, reply (f (g d)) gs = changed g (reply (f d) gs) := by
    intro d gs
    rw [h]
    cases f d with
    | error e => rfl
    | ok p => rfl
  cases db with
  | none => rfl
  | some d =>
    cases fs with
    | nil => exact hreply d []
    | cons x gs =>
      cases x with
      | none => exact hreply d gs
      | some e => rfl

/-- A statement that does not look. -/
theorem blind_exec (h : ∀ d, f (g d) = (f d).map (Prod.map id g)) : Blind g (exec f) :=
  answer_blind h

theorem blind_attempt (h : ∀ d, f (g d) = (f d).map (Prod.map id g)) : Blind g (attempt f) := by
  intro db fs
  show (Except.ok (answer f ⟨db.map g, fs⟩).1.toOption, (answer f ⟨db.map g, fs⟩).2) = _
  rw [answer_blind h]
  rfl

theorem blind_update {f : D → D} (h : ∀ d, f (g d) = g (f d)) : Blind g (update f : Tx D E Unit) :=
  blind_exec fun d => by rw [h]; rfl

theorem blind_select {f : D → α} (h : ∀ d, f (g d) = f d) : Blind g (select f : Tx D E α) :=
  blind_exec fun d => by rw [h]; rfl

end Statements

end Tx

end Foundation
