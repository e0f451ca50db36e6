/-
  Momento.Sdk.ConsentStorage

  **WHAT A WITHDRAWAL LEAVES IN STORAGE.**  `deny` and `revoke` clear the site's own
  keys.  The unscoped keys an older version left are never removed, and every page
  load copies each of them into the own key that is missing: after `revoke` the
  stored `granted` of the older version comes back, and so do its visitor and its
  offline queue.
-/
import Momento.Sdk.Custody

namespace Momento.Sdk

open Foundation

/-! ## §1. The property. -/

/-- The queue `restoreOffline` finds. -/
def Tab.found (σ : Setting) (t : Tab) : Option (List QueuedEvent) :=
  if t.page.isPersistent σ then
    match t.storage.own.offline with
    | some (.events saved) => some saved
    | _ => none
  else none

/-- A page load reports no granted consent, has a visitor id given out after the last
withdrawal, and restores no queue written before it. -/
structure LoadRespects (σ : Setting) (options : MomentoOptions) (now : Clock) (env : Env) : Prop where
  consent : (Tab.init σ options now env).page.consentState ≠ .granted
  visitor : env.log.withdrawnAt ≤ (Tab.init σ options now env).page.visitorId
  queue : ∀ saved ∈ ((Tab.opened σ options env).loadIdentity σ now).found σ, saved ∈ env.log.saved

/-- The property: every page load while a withdrawal stands respects it. -/
def ErasureSurvives (σ : Setting) (w : World) : Action → Prop
  | .load options now => w.page = none → w.env.log.standing → LoadRespects σ options now w.env
  | _ => True

/-- What a page load reads under a key is not the older version's: the own key holds
another value, or it is missing and none is copied. -/
def Renews {α : Type} (σ : Setting) (own legacy : Option α) : Prop :=
  (∀ v ∈ own, legacy ≠ some v) ∧ (own = none → σ.environment = "prd" → legacy = none)

/-- The consent a page load reads: the own key's, or in `prd` the unscoped one's. -/
def Storage.consentFound (σ : Setting) (storage : Storage) : Option StoredConsent :=
  storage.own.consent.or (if σ.environment = "prd" then storage.legacy.consent else none)

/-- A page that loads without a granted consent may store. -/
def StoresUnasked (σ : Setting) (options : MomentoOptions) (storage : Storage) : Prop :=
  options.mode = .full ∧ σ.doNotTrack = false ∧ storage.consentFound σ ≠ some .denied

/-- A page load while a withdrawal stands does not find a `granted` of the older version
where the consent key is missing, and if the page may store, it finds neither the
visitor nor the queue of the older version. -/
def NoLegacyReturn (σ : Setting) (w : World) : Action → Prop
  | .load options _ => w.page = none → w.env.log.standing →
      ¬(σ.environment = "prd" ∧ w.env.storage.own.consent = none
          ∧ w.env.storage.legacy.consent = some .granted)
        ∧ (StoresUnasked σ options w.env.storage →
          Renews σ w.env.storage.own.visitor w.env.storage.legacy.visitor
            ∧ Renews σ w.env.storage.own.offline w.env.storage.legacy.offline)
  | _ => True

/-! ## §2. The invariant. -/

/-- While a withdrawal stands, what the own keys hold is newer than it, or a copy of
an unscoped key. -/
structure Env.Erased (env : Env) : Prop where
  bound : env.log.withdrawnAt ≤ env.nextId
  consent : env.log.standing → env.storage.own.consent ≠ some .granted
  visitor : env.log.standing → ∀ v ∈ env.storage.own.visitor,
    env.storage.own.visitor = env.storage.legacy.visitor ∨ env.log.withdrawnAt ≤ v
  offline : env.log.standing → ∀ saved, env.storage.own.offline = some (.events saved) →
    env.storage.own.offline = env.storage.legacy.offline ∨ saved ∈ env.log.saved

namespace Tab
variable {σ : Setting}

theorem erased_frame {t t' : Tab} (hf : t.Frame t') (h : t.Erased) : t'.Erased where
  bound := by
    rw [hf.log]
    exact h.bound.trans hf.nextId
  consent := by
    rw [hf.log, hf.consent]
    exact h.consent
  visitor := by
    rw [hf.log, hf.legacy]
    intro hstanding v hv
    rcases hf.visitor with hsame | ⟨v', hv', hfresh⟩
    · rw [hsame] at hv ⊢
      exact h.visitor hstanding v hv
    · rw [hv', Option.mem_some_iff] at hv
      exact .inr (h.bound.trans (hv ▸ hfresh))
  offline := by
    rw [hf.log, hf.offline, hf.legacy]
    exact h.offline

theorem erased_saved {t t' : Tab} (hs : t.Saved t') (h : t.Erased) : t'.Erased where
  bound := by
    rw [hs.withdrawnAt, hs.nextId]
    exact h.bound
  consent := by
    rw [hs.standing, hs.consent]
    exact h.consent
  visitor := by
    rw [hs.standing, hs.visitor, hs.legacy, hs.withdrawnAt]
    exact h.visitor
  offline := by
    rw [hs.standing, hs.legacy]
    rcases hs.offline with ⟨hsame, hsaved⟩ | ⟨hkept, hsaved⟩
    · rw [hsame, hsaved]
      exact h.offline
    · intro _ saved hoffline
      rw [hkept, Option.some.injEq, StoredQueue.events.injEq] at hoffline
      rw [hsaved, ← hoffline]
      exact .inr (List.mem_append_right _ (List.mem_singleton_self _))

/-- Steps that touch neither storage nor the log of withdrawals. -/
theorem erased_of_eq {t t' : Tab} (h : t.Erased) (hown : t'.storage.own = t.storage.own)
    (hlegacy : t'.storage.legacy = t.storage.legacy) (hbound : t.nextId ≤ t'.nextId)
    (hwithdrawnAt : t'.log.withdrawnAt = t.log.withdrawnAt)
    (hstanding : t'.log.standing = t.log.standing) (hsaved : t'.log.saved = t.log.saved) :
    t'.Erased where
  bound := hwithdrawnAt ▸ h.bound.trans hbound
  consent := by
    rw [hstanding, hown]
    exact h.consent
  visitor := by
    rw [hstanding, hown, hlegacy, hwithdrawnAt]
    exact h.visitor
  offline := by
    rw [hstanding, hown, hlegacy, hsaved]
    exact h.offline

theorem erased_requeue {batch : List QueuedEvent} (room : Room) {t : Tab} (h : t.Erased) :
    (t.requeue σ batch room).Erased := by
  refine erased_saved (saved_requeue batch room t) ?_
  exact erased_of_eq h rfl rfl le_rfl rfl rfl rfl

theorem erased_flush {useBeacon : Bool} {t t' : Tab} (hcase : FlushCase σ useBeacon t t') (h : t.Erased) :
    t'.Erased := by
  cases hcase with
  | idle => exact h
  | sent => exact erased_of_eq h rfl rfl le_rfl rfl rfl rfl

theorem erased_stable : Stable σ fun t => t.Erased where
  frame := erased_frame
  push := fun _ _ _ h => erased_of_eq h rfl rfl (Nat.le_succ _) rfl rfl rfl
  sent := fun hcase h => erased_flush hcase h

theorem erased_answered {i : Nat} {room : Room} {outcome : Outcome} {t t' : Tab}
    (hcase : AnsweredCase σ i room t outcome t') (h : t.Erased) : t'.Erased := by
  cases hcase with
  | nobody => exact h
  | done =>
    exact erased_frame (frame_rescheduled _) (erased_of_eq h rfl rfl le_rfl rfl rfl rfl)
  | next => exact erased_of_eq h rfl rfl le_rfl rfl rfl rfl
  | lost => exact erased_requeue room (erased_of_eq h rfl rfl le_rfl rfl rfl rfl)
  | failed => exact erased_requeue room (erased_of_eq h rfl rfl le_rfl rfl rfl rfl)

/-- **A withdrawal leaves only the unscoped keys.** -/
theorem erased_clearTrackingState {t : Tab} (now : Clock)
    (hconsent : t.storage.own.consent ≠ some .granted) : (t.clearTrackingState now).Erased where
  bound := Nat.le_add_right _ _
  consent := fun _ => hconsent
  visitor := fun _ _ hv => by cases hv
  offline := fun _ _ hoffline => by cases hoffline

/-- After a grant no withdrawal stands. -/
theorem erased_grant (now : Clock) {t : Tab} (h : t.Erased) : (t.grant σ now).Erased := by
  have hbound : Stable σ fun t : Tab => t.log.withdrawnAt ≤ t.nextId :=
    { frame := fun hf hb => by rw [hf.log]; exact hb.trans hf.nextId
      push := fun _ _ _ hb => hb.trans (Nat.le_succ _)
      sent := by
        intro useBeacon t t' hcase hb
        cases hcase with
        | idle => exact hb
        | sent => exact hb }
  have hloaded := hbound.loadIdentity (t := t.setConsent .granted (some .granted)) now h.bound
  have hgranted : Env.Erased { (((t.setConsent .granted (some .granted)).loadIdentity σ now)).toEnv with
      log := { ((t.setConsent .granted (some .granted)).loadIdentity σ now).log with
        standing := false } } :=
    ⟨hloaded, fun h => absurd h Bool.false_ne_true, fun h => absurd h Bool.false_ne_true,
      fun h => absurd h Bool.false_ne_true⟩
  unfold Tab.grant
  dsimp only
  split
  · exact erased_stable.track _ _ now hgranted
  · exact hgranted

/-! ## §3. A page load. -/

theorem visitorId_flush (useBeacon : Bool) (t : Tab) :
    (t.flush σ useBeacon).page.visitorId = t.page.visitorId := by
  have hcase := flush_case (σ := σ) useBeacon t
  generalize t.flush σ useBeacon = t' at hcase
  cases hcase with
  | idle => rfl
  | sent => rfl

theorem visitorId_ensureSession (now : Clock) (t : Tab) :
    (t.ensureSession σ now).page.visitorId = t.page.visitorId := by
  unfold ensureSession
  split
  · dsimp only
    split <;> rfl
  · rfl

theorem visitorId_trackContent (content : Properties → Content) (now : Clock) (t : Tab) :
    (t.trackContent σ content now).page.visitorId = t.page.visitorId := by
  have hpersisted : ∀ t' : Tab, (t'.persistSession σ).page = t'.page := by
    intro t'
    unfold persistSession
    split <;> rfl
  unfold trackContent
  split
  · dsimp only
    split
    · rw [visitorId_flush, hpersisted]
      exact visitorId_ensureSession now t
    · show ((touch now _).persistSession σ).page.visitorId = _
      rw [hpersisted]
      exact visitorId_ensureSession now t
  · rfl

theorem visitorId_restoreOffline (t : Tab) :
    (t.restoreOffline σ).page.visitorId = t.page.visitorId := by
  unfold restoreOffline
  split
  · cases t.storage.own.offline with
    | none => rfl
    | some stored => cases stored <;> rfl
  · rfl

/-- The visitor of a page load is the one `loadIdentity` finds or gives out. -/
theorem visitorId_init (options : MomentoOptions) (now : Clock) (env : Env) :
    (Tab.init σ options now env).page.visitorId
      = ((opened σ options env).loadVisitor σ).page.visitorId := by
  have hreported : ∀ t : Tab, (t.reportDropped σ now).page.visitorId = t.page.visitorId := by
    intro t
    unfold reportDropped
    split
    · dsimp only
      split
      · rw [visitorId_trackContent]
      · rfl
    · rfl
  have hloaded : ((((opened σ options env).loadIdentity σ now).restoreOffline σ).reportDropped σ
      now).page.visitorId = ((opened σ options env).loadVisitor σ).page.visitorId := by
    rw [hreported, visitorId_restoreOffline, loadIdentity, visitorId_ensureSession]
    rfl
  unfold Tab.init
  dsimp only
  split
  · rw [Tab.track, visitorId_trackContent, hloaded]
  · exact hloaded

theorem consentState_stable (consent : ConsentState) :
    Stable σ fun t => t.page.consentState = consent where
  frame := fun hf h => hf.consentState.trans h
  push := fun _ _ _ h => h
  sent := by
    intro useBeacon t t' hcase h
    cases hcase with
    | idle => exact h
    | sent => exact h

theorem consentState_init (options : MomentoOptions) (now : Clock) (env : Env) :
    (Tab.init σ options now env).page.consentState
      = readConsentState (migrateLegacyStorage σ env.storage) := by
  refine (consentState_stable _).init now (fun h => ?_) (fun h => h) (fun _ _ h => h) rfl
  rw [← h]
  unfold restoreOffline
  split
  · cases ((opened σ options env).loadIdentity σ now).storage.own.offline with
    | none => rfl
    | some stored => cases stored <;> rfl
  · rfl

/-- The migration keeps what the withdrawal left. -/
theorem erased_opened {env : Env} (options : MomentoOptions) (h : env.Erased)
    (hconsent : env.log.standing →
      ¬(σ.environment = "prd" ∧ env.storage.own.consent = none
          ∧ env.storage.legacy.consent = some .granted)) :
    (opened σ options env).Erased := by
  obtain ⟨hc, hv, ho⟩ := own_migrate (σ := σ) env.storage
  refine ⟨h.bound, fun hstanding => ?_, fun hstanding v hmem => ?_, fun hstanding saved hsaved => ?_⟩
  · show (migrateLegacyStorage σ env.storage).own.consent ≠ some .granted
    rcases hc with hsame | ⟨hprd, hnone, hlegacy⟩
    · rw [hsame]
      exact h.consent hstanding
    · rw [hlegacy]
      exact fun hgranted => hconsent hstanding ⟨hprd, hnone, hgranted⟩
  · show (migrateLegacyStorage σ env.storage).own.visitor
      = (migrateLegacyStorage σ env.storage).legacy.visitor ∨ _
    rw [legacy_migrate]
    rcases hv with hsame | hlegacy
    · have hmem' : v ∈ env.storage.own.visitor := hsame ▸ hmem
      rw [hsame]
      exact h.visitor hstanding v hmem'
    · exact .inl hlegacy
  · show (migrateLegacyStorage σ env.storage).own.offline
      = (migrateLegacyStorage σ env.storage).legacy.offline ∨ _
    rw [legacy_migrate]
    rcases ho with hsame | hlegacy
    · have hsaved' : env.storage.own.offline = some (.events saved) := hsame ▸ hsaved
      rw [hsame]
      exact h.offline hstanding saved hsaved'
    · exact .inl hlegacy

/-- The visitor of a page load is fresh or, if the page may store, the stored one. -/
theorem loadVisitor_visitorId (t : Tab) :
    (t.loadVisitor σ).page.visitorId = t.nextId
      ∨ t.page.isPersistent σ ∧ t.storage.own.visitor = some (t.loadVisitor σ).page.visitorId := by
  unfold loadVisitor
  split
  next hpersistent =>
    cases hv : t.storage.own.visitor with
    | none => exact .inl rfl
    | some v => exact .inr ⟨hpersistent, rfl⟩
  · exact .inl rfl

theorem consent_migrate (storage : Storage) :
    (migrateLegacyStorage σ storage).own.consent = storage.consentFound σ := by
  unfold migrateLegacyStorage Storage.consentFound
  split
  · rfl
  · rw [Option.or_none]

/-- A page that may store though it was not asked. -/
theorem storesUnasked_of_isPersistent {env : Env} {options : MomentoOptions}
    (hconsent : env.storage.consentFound σ ≠ some .granted)
    (h : (opened σ options env).page.isPersistent σ) : StoresUnasked σ options env.storage := by
  have hstate : (opened σ options env).page.consentState
      = readConsentState (migrateLegacyStorage σ env.storage) := rfl
  have hmode : (opened σ options env).page.options.mode = options.mode := rfl
  unfold Page.isPersistent at h
  rw [hstate, hmode, readConsentState, consent_migrate] at h
  unfold StoresUnasked
  cases hfound : env.storage.consentFound σ with
  | none => simp_all
  | some c =>
    cases c with
    | granted => exact absurd hfound hconsent
    | denied => simp_all
    | other => simp_all

/-- A value that is read renewed is not the unscoped one. -/
theorem ne_legacy_of_renews {α : Type} {own legacy : Option α} (h : Renews σ own legacy) :
    ∀ v ∈ (if σ.environment = "prd" then own.or legacy else own), legacy ≠ some v := by
  intro v hv
  cases hown : own with
  | some u =>
    have hread : v ∈ own := by
      rw [hown] at hv ⊢
      split at hv
      · exact hv
      · exact hv
    exact h.1 v hread
  | none =>
    rw [hown] at hv
    split at hv
    next hprd =>
      rw [h.2 hown hprd] at hv
      cases hv
    · cases hv

/-- **A page load without a legacy key to copy respects the withdrawal.** -/
theorem loadRespects {env : Env} {options : MomentoOptions} (now : Clock) (h : env.Erased)
    (hstanding : env.log.standing)
    (hconsent : ¬(σ.environment = "prd" ∧ env.storage.own.consent = none
      ∧ env.storage.legacy.consent = some .granted))
    (hrenewed : StoresUnasked σ options env.storage →
      Renews σ env.storage.own.visitor env.storage.legacy.visitor
        ∧ Renews σ env.storage.own.offline env.storage.legacy.offline) :
    LoadRespects σ options now env := by
  have hopened := erased_opened (σ := σ) options h fun _ => hconsent
  have hungranted : env.storage.consentFound σ ≠ some .granted := by
    rw [← consent_migrate]
    exact hopened.consent hstanding
  have hvisitor : (migrateLegacyStorage σ env.storage).own.visitor
      = if σ.environment = "prd" then env.storage.own.visitor.or env.storage.legacy.visitor
        else env.storage.own.visitor := by
    unfold migrateLegacyStorage
    split
    · rfl
    · rfl
  have hqueue : (migrateLegacyStorage σ env.storage).own.offline
      = if σ.environment = "prd" then env.storage.own.offline.or env.storage.legacy.offline
        else env.storage.own.offline := by
    unfold migrateLegacyStorage
    split
    · rfl
    · rfl
  have hpersistent : ((opened σ options env).loadIdentity σ now).page.isPersistent σ
      = (opened σ options env).page.isPersistent σ :=
    (persistent_stable _).loadIdentity now rfl
  have hoffline : ((opened σ options env).loadIdentity σ now).storage.own.offline
      = (migrateLegacyStorage σ env.storage).own.offline :=
    (offline_stable (σ := σ) _).loadIdentity now rfl
  refine ⟨?_, ?_, ?_⟩
  · rw [consentState_init, readConsentState]
    have hstored := hopened.consent hstanding
    change (migrateLegacyStorage σ env.storage).own.consent ≠ some .granted at hstored
    cases hc : (migrateLegacyStorage σ env.storage).own.consent with
    | none =>
      intro h
      cases h
    | some c =>
      cases c with
      | granted => exact absurd hc hstored
      | denied =>
        intro h
        cases h
      | other =>
        intro h
        cases h
  · rw [visitorId_init]
    rcases loadVisitor_visitorId (σ := σ) (opened σ options env) with hfresh | ⟨hpage, hstored⟩
    · rw [hfresh]
      exact h.bound
    · rcases hopened.visitor hstanding _ hstored with hlegacy | hlater
      · have hread : (migrateLegacyStorage σ env.storage).own.visitor
            = some ((opened σ options env).loadVisitor σ).page.visitorId := hstored
        rw [hvisitor] at hread
        have hnot := ne_legacy_of_renews (hrenewed (storesUnasked_of_isPersistent hungranted hpage)).1 _ hread
        rw [hstored] at hlegacy
        exact absurd ((legacy_migrate (σ := σ) env.storage) ▸ hlegacy.symm) hnot
      · exact hlater
  · intro saved hfound
    unfold found at hfound
    rw [hpersistent, hoffline] at hfound
    split at hfound
    next hpage =>
      cases hq : (migrateLegacyStorage σ env.storage).own.offline with
      | none =>
        rw [hq] at hfound
        cases hfound
      | some stored =>
        rw [hq] at hfound
        cases stored with
        | events l =>
          rw [Option.mem_some_iff] at hfound
          rcases hopened.offline hstanding l hq with hlegacy | hsaved
          · have hnot := ne_legacy_of_renews
              (hrenewed (storesUnasked_of_isPersistent hungranted hpage)).2 _ (hqueue ▸ hq)
            rw [← legacy_migrate (σ := σ)] at hnot
            exact absurd (hlegacy.symm.trans hq) hnot
          · exact hfound ▸ hsaved
        | other => cases hfound
        | corrupt => cases hfound
    · cases hfound

end Tab

/-! ## §4. Runs. -/

/-- **One step.** -/
theorem erased_step {w : World} {a : Action} (hw : w.Holds (fun t => t.Erased) Env.Erased)
    (hreturn : NoLegacyReturn σ w a) : (step σ w a).Holds (fun t => t.Erased) Env.Erased := by
  have hstable : Tab.Stable σ fun t => t.Erased := Tab.erased_stable
  have hpage : ∀ {t t' : Tab}, t.Erased → t'.storage = t.storage → t'.nextId = t.nextId →
      t'.log = t.log → t'.Erased := by
    intro t t' h hstorage hnext hlog
    exact Tab.erased_of_eq h (by rw [hstorage]) (by rw [hstorage]) (by rw [hnext]) (by rw [hlog])
      (by rw [hlog]) (by rw [hlog])
  cases a with
  | load options now =>
    refine hw.load fun hp h => hstable.init now ?_ ?_ ?_ ?_
    · intro hloaded
      unfold Tab.restoreOffline
      split
      · cases ((Tab.opened σ options w.env).loadIdentity σ now).storage.own.offline with
        | none => exact hloaded
        | some stored =>
          cases stored with
          | corrupt => exact hloaded
          | _ => exact ⟨hloaded.bound, hloaded.consent, hloaded.visitor, fun _ _ h => by cases h⟩
      · exact hloaded
    · exact fun ht => ⟨ht.bound, ht.consent, ht.visitor, ht.offline⟩
    · exact fun _ _ ht => Tab.erased_of_eq ht rfl rfl (Nat.le_succ _) rfl rfl rfl
    · exact Tab.erased_opened options h fun hstanding => (hreturn hp hstanding).1
  | track name properties now => exact hw.onPage fun p _ h => hstable.track name properties now h
  | timer => exact hw.callback fun p _ h => hstable.timerFired h
  | flush useBeacon => exact hw.onPage fun p _ h => hstable.flush useBeacon h
  | hide => exact hw.callback fun p _ h => hstable.hide (fun ht => hpage ht rfl rfl rfl) h
  | «show» => exact hw.callback fun p _ h => hpage h rfl rfl rfl
  | respond i outcome room =>
    exact hw.onPage fun p _ h => Tab.erased_answered (Tab.answered_case i outcome room _) h
  | identify userId properties =>
    refine hw.onPage fun p _ h => ?_
    unfold Tab.identify
    split
    · exact h
    · exact hpage h rfl rfl rfl
  | setSessionProperties properties =>
    exact hw.onPage fun p _ h => hstable.frame (Tab.frame_setSessionProperties properties _) h
  | grant now => exact hw.onPage fun p _ h => Tab.erased_grant now h
  | deny now =>
    exact hw.onPage fun p _ h => Tab.erased_clearTrackingState now fun h => nomatch h
  | revoke now =>
    exact hw.onPage fun p _ h =>
      hstable.loadIdentity now (Tab.erased_clearTrackingState now fun h => nomatch h)
  | close =>
    exact World.Holds.close hw fun p _ _ h => ⟨h.bound, h.consent, h.visitor, h.offline⟩
  | orphan i outcome =>
    refine World.Holds.orphan hw fun payload hi => ?_
    cases hp : w.page with
    | none =>
      have h := World.Holds.ofEnv hw hp
      exact ⟨h.bound, h.consent, h.visitor, h.offline⟩
    | some p =>
      have h := World.Holds.ofPage hw hp
      exact ⟨h.bound, h.consent, h.visitor, h.offline⟩

/-- **Erasure survives every page load of a run none of whose loads brings back an
unscoped key.** -/
theorem erasureSurvives (σ : Setting) (storage : Storage) (nextId : Id) (actions : List Action)
    (hreturn : Throughout σ (NoLegacyReturn σ) (World.start storage nextId) actions) :
    Throughout σ (ErasureSurvives σ) (World.start storage nextId) actions := by
  have hstart : (World.start storage nextId).Holds (fun t => t.Erased) Env.Erased :=
    ⟨Nat.zero_le _, fun h => absurd h Bool.false_ne_true, fun h => absurd h Bool.false_ne_true,
      fun h => absurd h Bool.false_ne_true⟩
  generalize World.start storage nextId = w at hstart hreturn
  induction actions generalizing w with
  | nil => trivial
  | cons a actions ih =>
    refine ⟨?_, ih _ (erased_step hstart hreturn.1) hreturn.2⟩
    cases a with
    | load options now =>
      intro hp hstanding
      obtain ⟨hconsent, hrenewed⟩ := hreturn.1 hp hstanding
      exact Tab.loadRespects now (World.Holds.ofEnv hstart hp) hstanding hconsent hrenewed
    | _ => trivial

/-- A load, a revocation, and a later load. -/
def revokedThenLoaded : List Action :=
  [.load {} 10000000, .revoke 10000001, .hide, .respond 0 .ok {}, .close, .load {} 10000002]

theorem erasureSurvives_revokedThenLoaded :
    Throughout plainSetting (ErasureSurvives plainSetting) (World.start {} 0) revokedThenLoaded := by
  refine erasureSurvives plainSetting {} 0 _ ?_
  have hlegacy : ∀ {α : Type} {own legacy : Option α}, legacy.isNone = true →
      Renews plainSetting own legacy := by
    intro α own legacy hnone
    have hnil := Option.isNone_iff_eq_none.mp hnone
    refine ⟨fun v _ hsome => ?_, fun _ _ => hnil⟩
    rw [hnil] at hsome
    cases hsome
  refine ⟨fun _ h => absurd h (by decide), trivial, trivial, trivial, trivial,
    fun _ _ => ⟨?_, fun _ => ⟨hlegacy (by decide +kernel), hlegacy (by decide +kernel)⟩⟩, trivial⟩
  rintro ⟨-, -, hgranted⟩
  revert hgranted
  decide +kernel

/-- A browser whose older version had stored a consent. -/
def legacyConsent : Storage := { legacy := { consent := some .granted } }

/-- The later load finds the consent of the older version. -/
theorem revokedThenLoaded_granted :
    ¬∀ (σ : Setting) (storage : Storage) (nextId : Id) (actions : List Action),
      Throughout σ (ErasureSurvives σ) (World.start storage nextId) actions := by
  intro h
  have hload := (h plainSetting legacyConsent 0 revokedThenLoaded).2.2.2.2.2.1
  have hconsent := (hload (Option.isNone_iff_eq_none.mp (by decide +kernel)) (by decide +kernel)).consent
  revert hconsent
  decide +kernel

end Momento.Sdk
