/-
  Momento.Sdk.Tracker

  **THE BROWSER TRACKER, CALL BY CALL.**  A page holds a queue of events, the
  identity they are stamped with, and the flushes that are under way; beside it
  stand `localStorage`, which outlives the page, and the network.  Every method of
  the tracker is a function on that (`Tab`).

  JavaScript runs one callback at a time, so a method is atomic up to its first
  `await`: a flush stops at the request of its first group and goes on when the
  answer is there (`Flush`, `Tab.answered`).  The browser answers for a beacon at
  once, but what the same callback still calls comes before the flush goes on.

  The storage is there (`storageAvailable()`), but for the writes of a save, each of
  which may find no room (`Room`).

  `Log` records what happened and is read by no method; the properties are about
  it.
-/
import Momento.Foundation.Table
import Momento.Model.Json

namespace Momento.Sdk

open Foundation

/-! ## §1. Data. -/

/-- An identifier `id()` gave out: the n-th one.  Two calls never give the same. -/
abbrev Id := Nat

/-- Milliseconds since the epoch. -/
abbrev Clock := Int

/-- `TrackingMode`. -/
inductive TrackingMode
  | consentRequired
  | cookieConsent
  | cookieless
  | full
  | disabled
  deriving DecidableEq

/-- `ConsentState`. -/
inductive ConsentState
  | unknown
  | granted
  | denied
  deriving DecidableEq

/-- `MomentoOptions`. -/
structure MomentoOptions where
  mode : TrackingMode := .full
  sessionTimeoutMinutes : Nat := 30
  autoTrack : Bool := true
  batchSize : Nat := 10
  sessionProperties : Properties := []
  releaseContext : Properties := []

/-- What does not change from page to page: the site the storage keys are scoped
to, the browser, and the identifiers `identify` refuses. -/
structure Setting where
  siteId : String
  environment : String
  doNotTrack : Bool
  sendBeacon : Bool
  looksLikeAPerson : String → Bool

/-- `name` and `properties` of an event. -/
inductive Content where
  | tracked (name : String) (properties : Properties)
  | sessionStart (properties : Properties)
  | collectionDropped (eventsDropped : Nat) (properties : Properties)

/-- How many lost events an event reports. -/
def Content.eventsDropped : Content → Nat
  | collectionDropped n _ => n
  | _ => 0

/-- An event in the queue; the page context and the contract version are left
out.  One queued by a version that did not record them has no session and
visitor. -/
structure QueuedEvent where
  id : Id
  content : Content
  timestamp : Clock
  sessionProperties : Properties
  sessionId : Option Id
  visitorId : Option Id

/-- The event as it is sent: session and visitor stand in the payload. -/
structure WireEvent where
  id : Id
  content : Content
  timestamp : Clock
  sessionProperties : Properties

/-- The event as it is sent. -/
def QueuedEvent.wire (e : QueuedEvent) : WireEvent := ⟨e.id, e.content, e.timestamp, e.sessionProperties⟩

/-- The body of a request. -/
structure Payload where
  siteId : String
  environment : String
  visitorId : Id
  sessionId : Id
  userId : Option String
  userProperties : Properties
  sessionProperties : Properties
  events : List WireEvent

/-- The ids of a payload's events. -/
def Payload.ids (p : Payload) : List Id := p.events.map WireEvent.id

/-! ## §2. Storage. -/

/-- The session under its three keys. -/
structure StoredSession where
  id : Option Id
  last : Clock
  properties : Option Properties

/-- A stored text that is neither `granted` nor `denied` is `other`. -/
inductive StoredConsent
  | granted
  | denied
  | other
  deriving DecidableEq

/-- A stored queue; `other` parses to no array, `corrupt` does not parse. -/
inductive StoredQueue where
  | events (l : List QueuedEvent)
  | other
  | corrupt

/-- The keys of one prefix. -/
structure StorageKeys where
  visitor : Option Id := none
  session : Option StoredSession := none
  consent : Option StoredConsent := none
  offline : Option StoredQueue := none

/-- `localStorage`: the site's and environment's own keys, and the unscoped ones an
older version left. -/
structure Storage where
  own : StorageKeys := {}
  dropped : Option Nat := none
  legacy : StorageKeys := {}

/-- `OFFLINE_LIMIT`. -/
def offlineLimit : Nat := 200

/-- `slice(-OFFLINE_LIMIT)`. -/
def keptOffline (l : List QueuedEvent) : List QueuedEvent := l.drop (l.length - offlineLimit)

/-- What `slice(-OFFLINE_LIMIT)` leaves out. -/
def trimmedOffline (l : List QueuedEvent) : List QueuedEvent := l.take (l.length - offlineLimit)

/-! ## §3. A page and the tab around it. -/

/-- A flush under way: its batch, the request it waits for, the groups it has not sent
yet, and whether it sends them by beacon. -/
structure Flush where
  batch : List QueuedEvent
  request : Payload
  rest : List (List QueuedEvent)
  beacon : Bool

/-- Which writes of one save find room: the count of the trimmed events, the queue, and
the count of a queue that was not written.  Where `storageAvailable()` says no, none. -/
structure Room where
  trimmed : Bool := true
  queue : Bool := true
  counter : Bool := true

/-- The fields of the tracker. -/
structure Page where
  options : MomentoOptions
  visitorId : Id
  sessionId : Id
  lastEventAt : Clock
  userId : String
  userProperties : Properties
  sessionProperties : Properties
  defaultSessionProperties : Properties
  queue : List QueuedEvent
  timer : Bool
  consentState : ConsentState
  flushes : List Flush
  hidden : Bool

/-- The network: the requests whose page is gone and which are still under way,
and the payloads the collector or the browser accepted. -/
structure Network where
  orphans : List Payload := []
  accepted : List Payload := []

/-- What an event was tracked under. -/
structure Tracked where
  event : QueuedEvent
  visitorId : Id
  sessionId : Id
  userId : String
  sessionProperties : Properties

/-- What happened, for the statements only. -/
structure Log where
  tracked : List Tracked := []
  /-- Payloads handed to the network, each with `withdrawnAt` at that moment. -/
  handed : List (Payload × Id) := []
  /-- Events `recordDropped` has counted. -/
  counted : List Id := []
  /-- The next id at the last withdrawal: what has a smaller one is older. -/
  withdrawnAt : Id := 0
  /-- No grant followed the last withdrawal. -/
  standing : Bool := false
  /-- Offline queues written since the last withdrawal. -/
  saved : List (List QueuedEvent) := []

/-- The ids of all events tracked so far. -/
def Log.trackedIds (l : Log) : List Id := l.tracked.map (·.event.id)

/-- What outlives a page. -/
structure Env where
  storage : Storage
  net : Network := {}
  nextId : Id := 0
  log : Log := {}

/-- The browser with an open page. -/
structure Tab extends Env where
  page : Page

section Methods
variable (σ : Setting)

/-- `canTrack`. -/
def Page.canTrack (p : Page) : Bool :=
  if p.options.mode = .disabled then false
  else if p.consentState = .denied then false
  else if σ.doNotTrack ∧ p.consentState ≠ .granted then false
  else if p.options.mode = .consentRequired then p.consentState = .granted
  else true

/-- `isPersistent`. -/
def Page.isPersistent (p : Page) : Bool :=
  if p.consentState = .denied then false
  else if σ.doNotTrack ∧ p.consentState ≠ .granted then false
  else
    p.options.mode = .full
      ∨ (p.options.mode = .consentRequired ∨ p.options.mode = .cookieConsent)
        ∧ p.consentState = .granted

/-- `options.batchSize || 10`. -/
def Page.batchSize (p : Page) : Nat := if p.options.batchSize = 0 then 10 else p.options.batchSize

/-- `sessionTimeoutMinutes || 30`, in milliseconds. -/
def Page.timeout (p : Page) : Int :=
  (if p.options.sessionTimeoutMinutes = 0 then 30 else p.options.sessionTimeoutMinutes) * 60000

namespace Tab

/-! ## §4. Tracking. -/

/-- `this.queue.push({ id: id(), … })`, stamped with the page's identity. -/
def push (content : Content) (now : Clock) (t : Tab) : Tab :=
  let event : QueuedEvent :=
    { id := t.nextId
      content := content
      timestamp := now
      sessionProperties := t.page.sessionProperties
      sessionId := some t.page.sessionId
      visitorId := some t.page.visitorId }
  { t with
    page := { t.page with queue := t.page.queue ++ [event] }
    nextId := t.nextId + 1
    log := { t.log with
      tracked := t.log.tracked ++
        [⟨event, t.page.visitorId, t.page.sessionId, t.page.userId, t.page.sessionProperties⟩] } }

/-- `persistSession`. -/
def persistSession (t : Tab) : Tab :=
  if t.page.isPersistent σ then
    { t with
      storage := { t.storage with
        own := { t.storage.own with
          session := some ⟨some t.page.sessionId, t.page.lastEventAt,
            some t.page.sessionProperties⟩ } } }
  else t

/-- The session `ensureSession` begins. -/
def renewSession (now : Clock) (t : Tab) : Tab :=
  { t with
    page := { t.page with
      sessionId := t.nextId
      lastEventAt := now
      sessionProperties := t.page.defaultSessionProperties }
    nextId := t.nextId + 1 }

/-- `ensureSession`. -/
def ensureSession (now : Clock) (t : Tab) : Tab :=
  if t.page.timeout < now - t.page.lastEventAt then
    let t := t.renewSession now
    if t.page.canTrack σ then t.push (.sessionStart t.page.options.releaseContext) now else t
  else t

/-- `this.lastEventAt = timestamp`. -/
def touch (now : Clock) (t : Tab) : Tab := { t with page := { t.page with lastEventAt := now } }

/-- `scheduleFlush`. -/
def scheduleFlush (t : Tab) : Tab := { t with page := { t.page with timer := true } }

/-! ## §5. Delivery. -/

/-- The key `groupBySession` groups by. -/
def groupKey (t : Tab) (e : QueuedEvent) : Id × Id :=
  (e.visitorId.getD t.page.visitorId, e.sessionId.getD t.page.sessionId)

/-- `groupBySession`. -/
def groupBySession (t : Tab) (events : List QueuedEvent) : List (List QueuedEvent) :=
  Table.groupsInOrder t.groupKey events

/-- The payload `deliver` builds for a group. -/
def payloadOf (t : Tab) (events : List QueuedEvent) : Payload where
  siteId := σ.siteId
  environment := σ.environment
  visitorId := (events.head?.bind QueuedEvent.visitorId).getD t.page.visitorId
  sessionId := (events.head?.bind QueuedEvent.sessionId).getD t.page.sessionId
  userId := if t.page.userId = "" then none else some t.page.userId
  userProperties := t.page.userProperties
  sessionProperties := t.page.sessionProperties
  events := events.map QueuedEvent.wire

/-- A payload is handed to the network. -/
def hand (payload : Payload) (t : Tab) : Tab :=
  { t with log := { t.log with handed := t.log.handed ++ [(payload, t.log.withdrawnAt)] } }

/-- The collector takes a payload. -/
def accept (payload : Payload) (t : Tab) : Tab :=
  { t with net := { t.net with accepted := t.net.accepted ++ [payload] } }

/-- `recordDropped`, told the events and not only their number; a counter that finds no
room stays as it is. -/
def recordDropped (room : Bool) (events : List QueuedEvent) (t : Tab) : Tab :=
  if events.length = 0 ∨ ¬t.page.isPersistent σ ∨ room = false then t
  else
    { t with
      storage := { t.storage with dropped := some (t.storage.dropped.getD 0 + events.length) }
      log := { t.log with counted := t.log.counted ++ events.map QueuedEvent.id } }

/-- `saveOffline`. -/
def saveOffline (room : Room) (t : Tab) : Tab :=
  if t.page.isPersistent σ then
    let kept := keptOffline t.page.queue
    let t := t.recordDropped σ room.trimmed (trimmedOffline t.page.queue)
    if room.queue then
      { t with
        storage := { t.storage with
          own := { t.storage.own with offline := some (.events kept) } }
        log := { t.log with saved := t.log.saved ++ [kept] } }
    else t.recordDropped σ room.counter t.page.queue
  else t

/-- Another queue. -/
def setQueue (queue : List QueuedEvent) (t : Tab) : Tab :=
  { t with page := { t.page with queue := queue } }

/-- Other flushes under way. -/
def setFlushes (flushes : List Flush) (t : Tab) : Tab :=
  { t with page := { t.page with flushes := flushes } }

/-- The `catch` of `flush`: the whole batch goes back. -/
def requeue (batch : List QueuedEvent) (room : Room) (t : Tab) : Tab :=
  (t.setQueue (batch ++ t.page.queue)).saveOffline σ room

/-- The end of `flush`. -/
def rescheduled (t : Tab) : Tab := if t.page.queue.isEmpty then t else t.scheduleFlush

/-- `flush(useBeacon)` up to its first wait. -/
def flush (useBeacon : Bool) (t : Tab) : Tab :=
  if t.page.queue.isEmpty ∨ ¬t.page.canTrack σ then t
  else
    let batch := t.page.queue.take t.page.batchSize
    let t := t.setQueue (t.page.queue.drop t.page.batchSize)
    match t.groupBySession batch with
    | [] => t.rescheduled
    | group :: rest =>
      (t.hand (t.payloadOf σ group)).setFlushes
        (t.page.flushes ++ [⟨batch, t.payloadOf σ group, rest, useBeacon && σ.sendBeacon⟩])

/-- What became of a request: the collector accepted it and said so, accepted it
but the answer was lost or no success, or did not get it.  A beacon the browser takes,
or it refuses it, or is offline. -/
inductive Outcome
  | ok
  | unanswered
  | failed
  deriving DecidableEq

/-- A request is answered, or not. -/
def settle (payload : Payload) : Outcome → Tab → Tab
  | .ok, t => t.accept payload
  | .unanswered, t => t.accept payload
  | .failed, t => t

end Tab

/-- The `i`-th flush under way, if the answer can be one to its request: the browser's
answer for a beacon is never lost. -/
def Page.waiting (i : Nat) (outcome : Tab.Outcome) (p : Page) : Option Flush :=
  p.flushes[i]?.filter fun f => !(f.beacon && outcome = .unanswered)

namespace Tab

/-- The `i`-th flush goes on with the answer to its request. -/
def answered (i : Nat) (outcome : Outcome) (room : Room) (t : Tab) : Tab :=
  match t.page.waiting i outcome with
  | none => t
  | some f =>
    let t := t.settle f.request outcome
    match outcome, f.rest with
    | .ok, [] => (t.setFlushes (t.page.flushes.eraseIdx i)).rescheduled
    | .ok, group :: rest =>
      (t.hand (t.payloadOf σ group)).setFlushes
        (t.page.flushes.set i ⟨f.batch, t.payloadOf σ group, rest, f.beacon⟩)
    | _, _ => (t.setFlushes (t.page.flushes.eraseIdx i)).requeue σ f.batch room

/-! ## §6. Tracking, the rest of it. -/

/-- `track`, of any content. -/
def trackContent (content : Properties → Content) (now : Clock) (t : Tab) : Tab :=
  if t.page.canTrack σ then
    let t := t.ensureSession σ now
    let t := t.push (content t.page.options.releaseContext) now
    let t := (t.touch now).persistSession σ
    if t.page.batchSize ≤ t.page.queue.length then t.flush σ false else t.scheduleFlush
  else t

/-- `track(name, properties)`. -/
def track (name : String) (properties : Properties) (now : Clock) (t : Tab) : Tab :=
  t.trackContent σ (fun release => .tracked name (properties.concat release)) now

/-- `reportDropped`. -/
def reportDropped (now : Clock) (t : Tab) : Tab :=
  if t.page.isPersistent σ then
    let dropped := t.storage.dropped.getD 0
    let t := { t with storage := { t.storage with dropped := none } }
    if 0 < dropped then t.trackContent σ (.collectionDropped dropped) now else t
  else t

/-- `restoreOffline`. -/
def restoreOffline (t : Tab) : Tab :=
  if t.page.isPersistent σ then
    let cleared := { t with
      storage := { t.storage with own := { t.storage.own with offline := none } } }
    match t.storage.own.offline with
    | none => t
    | some (.events saved) =>
      { cleared with page := { t.page with queue := t.page.queue ++ keptOffline saved } }
    | some .other => cleared
    | some .corrupt => t
  else t

/-! ## §7. Identity and consent. -/

/-- `identify`. -/
def identify (userId : String) (properties : Properties) (t : Tab) : Tab :=
  if userId = "" ∨ σ.looksLikeAPerson userId then t
  else
    { t with
      page := { t.page with
        userId := userId
        userProperties := t.page.userProperties.concat properties } }

/-- `setSessionProperties`. -/
def setSessionProperties (properties : Properties) (t : Tab) : Tab :=
  Tab.persistSession σ { t with
    page := { t.page with sessionProperties := t.page.sessionProperties.concat properties } }

/-- `readConsentState`. -/
def readConsentState (storage : Storage) : ConsentState :=
  match storage.own.consent with
  | some .granted => .granted
  | some .denied => .denied
  | _ => .unknown

/-- `migrateLegacyStorage`: the unscoped keys stay where they are. -/
def migrateLegacyStorage (storage : Storage) : Storage :=
  if σ.environment = "prd" then
    { storage with
      own :=
        { visitor := storage.own.visitor.or storage.legacy.visitor
          session := storage.own.session.or storage.legacy.session
          consent := storage.own.consent.or storage.legacy.consent
          offline := storage.own.offline.or storage.legacy.offline } }
  else storage

/-- `loadIdentity` up to the session: the stored visitor id, or a fresh one. -/
def loadVisitor (t : Tab) : Tab :=
  if t.page.isPersistent σ then
    match t.storage.own.visitor with
    | some visitorId => { t with page := { t.page with visitorId := visitorId } }
    | none =>
      { t with
        page := { t.page with visitorId := t.nextId }
        storage := { t.storage with own := { t.storage.own with visitor := some t.nextId } }
        nextId := t.nextId + 1 }
  else { t with page := { t.page with visitorId := t.nextId }, nextId := t.nextId + 1 }

/-- The session `loadIdentity` finds. -/
def loadSession (t : Tab) : Tab :=
  let stored : StoredSession :=
    if t.page.isPersistent σ then t.storage.own.session.getD ⟨none, 0, none⟩ else ⟨none, 0, none⟩
  { t with
    page := { t.page with
      sessionId := stored.id.getD t.nextId
      lastEventAt := stored.last
      sessionProperties := t.page.defaultSessionProperties.concat (stored.properties.getD []) }
    nextId := t.nextId + 1 }

/-- `loadIdentity`. -/
def loadIdentity (now : Clock) (t : Tab) : Tab :=
  ((t.loadVisitor σ).loadSession σ).ensureSession σ now

/-- `clearIdentityStorage`. -/
def clearIdentityStorage (storage : Storage) : Storage :=
  { storage with
    own := { storage.own with visitor := none, session := none, offline := none }
    dropped := none }

/-- `clearTrackingState`: flushes under way are not stopped. -/
def clearTrackingState (now : Clock) (t : Tab) : Tab :=
  { t with
    page := { t.page with
      queue := []
      timer := false
      visitorId := t.nextId
      sessionId := t.nextId + 1
      lastEventAt := now }
    storage := clearIdentityStorage t.storage
    nextId := t.nextId + 2
    log := { t.log with
      withdrawnAt := t.nextId
      standing := true
      saved := [] } }

/-- The page's consent, and what is stored of it. -/
def setConsent (consent : ConsentState) (stored : Option StoredConsent) (t : Tab) : Tab :=
  { t with
    page := { t.page with consentState := consent }
    storage := { t.storage with own := { t.storage.own with consent := stored } } }

/-- Consent is granted. -/
def grant (now : Clock) (t : Tab) : Tab :=
  let wasTracking := t.page.canTrack σ
  let t := (t.setConsent .granted (some .granted)).loadIdentity σ now
  let t := { t with log := { t.log with standing := false } }
  if ¬wasTracking ∧ t.page.options.autoTrack then t.track σ "page_view" [] now else t

/-- Consent is denied. -/
def deny (now : Clock) (t : Tab) : Tab := (t.setConsent .denied (some .denied)).clearTrackingState now

/-- Consent is withdrawn. -/
def revoke (now : Clock) (t : Tab) : Tab :=
  ((t.setConsent .unknown none).clearTrackingState now).loadIdentity σ now

/-! ## §8. A page load. -/

/-- A page before `init`. -/
def freshPage (options : MomentoOptions) : Page where
  options := options
  visitorId := 0
  sessionId := 0
  lastEventAt := 0
  userId := ""
  userProperties := []
  sessionProperties := options.sessionProperties
  defaultSessionProperties := options.sessionProperties
  queue := []
  timer := false
  consentState := .unknown
  flushes := []
  hidden := false

/-- `init` up to the restored queue. -/
def opened (options : MomentoOptions) (env : Env) : Tab :=
  let storage := migrateLegacyStorage σ env.storage
  { env with
    storage := storage
    page := { freshPage options with consentState := readConsentState storage } }

/-- `init`. -/
def init (options : MomentoOptions) (now : Clock) (env : Env) : Tab :=
  let t := (((opened σ options env).loadIdentity σ now).restoreOffline σ).reportDropped σ now
  if t.page.options.autoTrack then t.track σ "page_view" [] now else t

end Tab

end Methods

end Momento.Sdk
