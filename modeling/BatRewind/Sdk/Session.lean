import BatRewind.Queue.SessionID
import BatRewind.Sdk.Sends
import BatRewind.Sdk.Upload

/-!
# The stored session, and which uploads the writer accepts

`packages/browser/src/session.ts` keeps the session id and the share token in `sessionStorage`, so
that the pages of a tab share a session. Its `try` blocks fall through where the storage fails.

* `getOrCreateSession`: a stored session that is not expired, else a new one.
* `Page.step`: the pages of a tab, one after the other, and the storage that they share.
* `Page.Stored`: every id in use or in store is the text of a UUID; kept by each input
  (`Page.Stored.step`).
* **`uploads_accepted_iff`**: so the uploads of a run are accepted exactly if none is made while an
  empty identifier or service name is set; `empty_identifier_refused`.
-/

namespace BatRewind

namespace Sdk

open Logs

/-! ## The storage -/

/-- The text of a UUID: hyphenated digits. -/
def UUIDText (s : String) : Prop := hexGroups [8, 4, 4, 4, 12] (utf8 s) = true

instance (s : String) : Decidable (UUIDText s) := inferInstanceAs (Decidable (_ = true))

/-- A value of `crypto.randomUUID`. -/
structure RandomUUID where
  text : String
  canonical : UUIDText text

theorem UUIDText.ne_empty {s : String} (h : UUIDText s) : s ≠ "" := by
  rintro rfl
  exact absurd h (by decide)

theorem uuidParse_of_uuidText {s : String} (h : UUIDText s) : uuidParse (utf8 s) = true := by
  have hlen : (utf8 s).length = 36 := by
    obtain ⟨g, r, hs, hg, -, hr⟩ := hexGroups_cons h
    obtain ⟨g₂, r₂, rfl, hg₂, -, hr₂⟩ := hexGroups_cons hr
    obtain ⟨g₃, r₃, rfl, hg₃, -, hr₃⟩ := hexGroups_cons hr₂
    obtain ⟨g₄, r₄, rfl, hg₄, -, hr₄⟩ := hexGroups_cons hr₃
    simp only [hexGroups, Bool.and_eq_true, decide_eq_true_eq] at hr₄
    rw [hs]
    simp only [List.length_append, List.length_cons]
    omega
  simp only [uuidParse, hlen]
  exact h

/-- What is kept in `sessionStorage`. Older versions stored no share token. -/
structure StoredSession where
  id : String
  shareToken : Option String
  expiresAt : ℤ

/-- Thirty minutes, in milliseconds. -/
def SESSION_TTL_MS : ℤ := 30 * 60 * 1000

/-- What a call of `getOrCreateSession` meets: whether the storage can be read and written, the
readings of the clock and the generated ids. The two writes are in different `try` blocks. -/
structure Browser where
  getItem : Bool
  setItem : Bool
  setItemNew : Bool
  now : ℤ
  nowStored : ℤ
  newID : RandomUUID
  newToken : RandomUUID

/-- `stored.shareToken || generateId()`. -/
def orGenerated (shareToken : Option String) (generated : RandomUUID) : {t : String // t ≠ ""} :=
  if h : shareToken.getD "" ≠ "" then ⟨shareToken.getD "", h⟩
  else ⟨generated.text, generated.canonical.ne_empty⟩

/-- The first `try` block: a stored session that is not expired is kept and extended. -/
def reuseSession (browser : Browser) (storage : Option StoredSession) :
    Option (SessionHandle × StoredSession) :=
  match storage with
  | none => none
  | some stored =>
    if h : stored.id ≠ "" then
      if browser.getItem && browser.now < stored.expiresAt && browser.setItem then
        let shareToken := orGenerated stored.shareToken browser.newToken
        some (⟨stored.id, shareToken.1, h, shareToken.2⟩,
          ⟨stored.id, some shareToken.1, browser.nowStored + SESSION_TTL_MS⟩)
      else none
    else none

/-- What is reused is a stored session, with its expiry extended. -/
theorem reuseSession_some {browser : Browser} {storage : Option StoredSession}
    {r : SessionHandle × StoredSession} (h : reuseSession browser storage = some r) :
    ∃ st, storage = some st ∧ r.1.id = st.id ∧
      r.1.shareToken = (orGenerated st.shareToken browser.newToken).1 ∧
      r.2 = ⟨r.1.id, some r.1.shareToken, browser.nowStored + SESSION_TTL_MS⟩ := by
  unfold reuseSession at h
  split at h
  · cases h
  next st =>
    split_ifs at h
    cases h
    exact ⟨st, rfl, rfl, rfl, rfl⟩

/-- **The session of a page**, and the storage afterwards. -/
def getOrCreateSession (browser : Browser) (storage : Option StoredSession) :
    SessionHandle × Option StoredSession :=
  match reuseSession browser storage with
  | some (handle, stored) => (handle, some stored)
  | none =>
    let handle : SessionHandle := ⟨browser.newID.text, browser.newToken.text,
      browser.newID.canonical.ne_empty, browser.newToken.canonical.ne_empty⟩
    (handle, if browser.setItemNew then
      some ⟨handle.id, some handle.shareToken, browser.nowStored + SESSION_TTL_MS⟩
    else storage)

/-- The stored ids were written by the SDK. -/
def StoredIDs (storage : Option StoredSession) : Prop := ∀ st, storage = some st → UUIDText st.id

/-- The id of a session is the text of a UUID, and so is what is stored of it. -/
theorem getOrCreateSession_uuid (browser : Browser) {storage : Option StoredSession}
    (h : StoredIDs storage) : UUIDText (getOrCreateSession browser storage).1.id ∧
      StoredIDs (getOrCreateSession browser storage).2 := by
  unfold getOrCreateSession
  split
  next handle stored heq =>
    obtain ⟨st, rfl, hid, -, hstored⟩ := reuseSession_some heq
    have huuid : UUIDText handle.id := hid ▸ h st rfl
    have hsame : stored.id = handle.id := congrArg StoredSession.id hstored
    refine ⟨huuid, ?_⟩
    rintro _ ⟨⟩
    exact hsame ▸ huuid
  next heq =>
    refine ⟨browser.newID.canonical, ?_⟩
    intro st hst
    dsimp only at hst
    split_ifs at hst
    · cases hst
      exact browser.newID.canonical
    · exact h st hst

/-! ## The pages of a tab -/

/-- The module on the current page, and the storage of the tab. -/
structure Page where
  sdk : State ℤ := {}
  storage : Option StoredSession := none

/-- An input: another page is loaded, `init` is called, or anything else happens. -/
inductive Input where
  | load
  | init (config : Config ℤ) (browser : Browser) (client : ClientMeta String)
  | other (a : Action ℤ) (h : ∀ config session client, a ≠ .init config session client)

namespace Page

/-- **One input of a page.** `init` asks for a session unless the module is initialized. -/
def step (stringify : List (RawEvent ℤ) → String) (p : Page) : Input → Page
  | .load => { p with sdk := { sent := p.sdk.sent } }
  | .init config browser client =>
    if p.sdk.initialized then p
    else
      let created := getOrCreateSession browser p.storage
      ⟨p.sdk.init config created.1 client, created.2⟩
  | .other a _ => { p with sdk := p.sdk.step stringify a }

/-- A run. -/
def run (stringify : List (RawEvent ℤ) → String) (p : Page) (inputs : List Input) : Page :=
  inputs.foldl (step stringify) p

/-- What the module sent. -/
def sent (p : Page) : List (Batch ℤ) := p.sdk.sent

/-- The configuration sets no empty identifier and no empty service name. -/
def Named (p : Page) : Prop := ∀ config, p.sdk.config = some config →
  config.identifier ≠ some "" ∧ config.serviceName.or config.service ≠ some ""

/-- **The ids in use and in store are texts of UUIDs.** -/
structure Stored (p : Page) : Prop where
  session : ∀ session, p.sdk.session = some session → UUIDText session.id
  storage : StoredIDs p.storage

variable {stringify : List (RawEvent ℤ) → String} {p : Page}

/-- An input sends nothing, or one batch of events of the current session. -/
theorem step_sent (stringify : List (RawEvent ℤ) → String) (p : Page) (i : Input) :
    p.sdk.SendsOne (p.step stringify i).sent fun _ _ => True := by
  cases i with
  | load => exact Or.inl rfl
  | init config browser client =>
    simp only [step]
    split_ifs
    · exact Or.inl rfl
    · exact (State.step_sent stringify p.sdk (.init config _ client)).mono fun _ _ _ => trivial
  | other a h => exact (State.step_sent stringify p.sdk a).mono fun _ _ _ => trivial

theorem grows_sent (stringify : List (RawEvent ℤ) → String) : Grows (step stringify) sent :=
  fun p i => (step_sent stringify p i).isPrefix

/-- Only `init` sets a session. -/
theorem session_step (stringify : List (RawEvent ℤ) → String) (s : State ℤ) {a : Action ℤ}
    (ha : ∀ config session client, a ≠ .init config session client) :
    (s.step stringify a).session = s.session ∨ (s.step stringify a).session = none := by
  have hflush : ∀ (s : State ℤ) (force keepalive : Bool),
      (s.flush stringify force keepalive).session = s.session := by
    intro s force keepalive
    obtain ⟨buffer, sent, metaSent, heq⟩ := State.flush_sends stringify s force keepalive
    rw [heq]
  have hupload : ∀ (trigger : Trigger) (keepalive : Bool),
      (s.uploadBuffer trigger keepalive).session = s.session := by
    intro trigger keepalive
    obtain ⟨buffer, sent, metaSent, heq⟩ := State.uploadBuffer_sends s trigger keepalive
    rw [heq]
  cases a with
  | init config session client => exact absurd rfl (ha config session client)
  | stop => exact Or.inr rfl
  | identify identifier => exact Or.inl rfl
  | emit event isCheckout now =>
    left
    simp only [State.step, State.emit]
    split
    · rfl
    · unfold State.emitBuffered
      split_ifs <;> rfl
    · unfold State.emitAlways
      dsimp only
      split_ifs
      · rcases State.upload_cases { s with recorder := some (.always false) } [event] .stream false
          with ⟨-, heq⟩ | ⟨batch, sent, -, heq⟩ <;> rw [heq]
      · exact hflush _ true false
      · rfl
  | timer =>
    simp only [State.step]
    split_ifs <;> simp [hflush]
  | visibilityChange hidden =>
    simp only [State.step, State.onVisibilityChange]
    split_ifs <;> simp [hflush]
  | beforeUnload =>
    simp only [State.step, State.onBeforeUnload]
    split_ifs <;> simp [hflush]
  | error =>
    simp only [State.step, State.onError]
    split_ifs <;> simp [hupload]
  | report =>
    simp only [State.step, State.report]
    split_ifs <;> simp [hflush, hupload]

/-- **Every input keeps the ids.** -/
theorem Stored.step (h : p.Stored) (i : Input) : (p.step stringify i).Stored := by
  cases i with
  | load => exact ⟨fun session hs => absurd hs (by simp [Page.step]), h.storage⟩
  | init config browser client =>
    simp only [Page.step]
    split_ifs with hinit
    · exact h
    · obtain ⟨hid, hstorage⟩ := getOrCreateSession_uuid browser h.storage
      refine ⟨fun session hs => ?_, hstorage⟩
      have hsession : (p.sdk.init config (getOrCreateSession browser p.storage).1 client).session =
          some (getOrCreateSession browser p.storage).1 := by
        unfold State.init
        rw [if_neg hinit]
        dsimp only
        split <;> rfl
      rw [hsession] at hs
      cases hs
      exact hid
  | other a ha =>
    refine ⟨fun session hs => ?_, h.storage⟩
    rcases session_step stringify p.sdk ha with heq | hnone
    · exact h.session session (heq.symm.trans hs)
    · exact absurd (hnone.symm.trans hs) (by simp)

/-! ## Main theorem -/

/-- The writer accepts the upload. -/
def Accepted (lib : Writer.Libraries) (b : Batch ℤ) : Prop :=
  Writer.check lib b.payload.body = .ok b.payload.request

theorem accepted_iff {lib : Writer.Libraries} {b : Batch ℤ} :
    Accepted lib b ↔ Writer.required b.payload.request = true ∧
      lib.parseUUID b.payload.sessionId = true := by
  have hid : b.payload.request.sessionID = b.payload.sessionId := rfl
  unfold Accepted Writer.check
  rw [BatchPayload.decode_body]
  dsimp only
  rw [hid]
  split_ifs with hrequired hparse
  · simp_all
  · simp_all
  · simp_all

/-- The names of a batch are empty exactly if they are set so. -/
theorem required_batch {s : State ℤ} {config : Config ℤ} {session : SessionHandle}
    {events : List (RawEvent ℤ)} (hne : events ≠ []) (trigger : Trigger) (keepalive : Bool) :
    Writer.required (s.batch config session events trigger keepalive).payload.request = true ↔
      config.identifier ≠ some "" ∧ config.serviceName.or config.service ≠ some "" := by
  have hidentifier : config.identifier.getD session.id = "" ↔ config.identifier = some "" := by
    cases config.identifier with
    | none => simp [session.id_ne]
    | some identifier => simp
  have hservice : (config.serviceName.or config.service).getD "web" = "" ↔
      config.serviceName.or config.service = some "" := by
    cases config.serviceName.or config.service with
    | none => simp
    | some service => simp
  have hevents : (events.map RawEvent.stored).isEmpty = false := by simpa using hne
  simp only [Writer.required, State.batch, BatchPayload.request, hevents, Bool.and_eq_true,
    decide_eq_true_eq, ne_eq, session.id_ne, hidentifier, hservice, not_false_eq_true, true_and,
    Bool.not_false, and_true]

variable {lib : Writer.Libraries}

/-- **One input**: what it sends is accepted exactly if it sends nothing or the names are set. -/
theorem added_accepted_iff (hlib : ∀ s, UUIDText s → lib.parseUUID s = true) (h : p.Stored)
    (i : Input) : (∀ b ∈ added (Page.step stringify) sent p i, Accepted lib b) ↔
      (added (Page.step stringify) sent p i ≠ [] → p.Named) := by
  rcases step_sent stringify p i with
    heq | ⟨config, session, events, trigger, keepalive, hc, hs, hne, -, heq⟩
  · have hadded : added (Page.step stringify) sent p i = [] :=
      added_eq (heq.trans (List.append_nil _).symm)
    simp [hadded]
  · have hadded : added (Page.step stringify) sent p i = _ := added_eq heq
    have hid : lib.parseUUID session.id = true := hlib _ (h.session session hs)
    rw [hadded]
    simp only [List.mem_singleton, forall_eq, ne_eq, List.cons_ne_nil, not_false_eq_true,
      forall_true_left]
    rw [accepted_iff, required_batch hne]
    constructor
    · rintro ⟨hnamed, -⟩ config' hc'
      obtain rfl : config = config' := Option.some.inj (hc.symm.trans hc')
      exact hnamed
    · intro hnamed
      exact ⟨hnamed config hc, hid⟩

/-- **The uploads of a run are accepted** by the writer, whatever the inputs on the pages of a tab,
exactly if no upload is made while an empty identifier or service name is set. -/
theorem uploads_accepted_iff (hlib : ∀ s, UUIDText s → lib.parseUUID s = true)
    (stringify : List (RawEvent ℤ) → String) {storage : Option StoredSession}
    (hstored : StoredIDs storage) (inputs : List Input) :
    (∀ b ∈ (run stringify ⟨{}, storage⟩ inputs).sent, Accepted lib b) ↔
      ∀ p i, Taken (Page.step stringify) ⟨{}, storage⟩ inputs p i →
        added (Page.step stringify) sent p i ≠ [] → p.Named := by
  have hstart : Stored ⟨{}, storage⟩ := ⟨fun session hs => absurd hs (by simp), hstored⟩
  have hlog := (grows_sent stringify).forall_iff (Accepted lib) ⟨{}, storage⟩ inputs
  refine hlog.trans ⟨fun hall p i ht => ?_, fun hall => ⟨by simp [sent], fun p i ht => ?_⟩⟩
  · have hp : p.Stored := ht.invariant hstart fun q j _ hq => hq.step j
    exact (added_accepted_iff hlib hp i).1 (hall.2 p i ht)
  · have hp : p.Stored := ht.invariant hstart fun q j _ hq => hq.step j
    exact (added_accepted_iff hlib hp i).2 (hall p i ht)

theorem googleLibraries_uuid : ∀ s, UUIDText s → googleLibraries.parseUUID s = true :=
  fun _ h => uuidParse_of_uuidText h

/-- A browser with a working, empty storage. -/
def sampleBrowser : Browser where
  getItem := true
  setItem := true
  setItemNew := true
  now := 0
  nowStored := 0
  newID := ⟨sampleID, by decide +kernel⟩
  newToken := ⟨sampleEventID false, by decide +kernel⟩

/-- A page that records one event. -/
def recordingPage : List Input :=
  [.init (sampleConfig .buffered) sampleBrowser sampleClient,
    .other (.emit (bareEvent 2 0) false 0) (by simp)]

/-- Such a page makes one report, and it is accepted. -/
theorem report_accepted :
    (run stringifyBare ⟨{}, none⟩ (recordingPage ++ [.other .report (by simp)])).sent.length = 1 ∧
      ∀ b ∈ (run stringifyBare ⟨{}, none⟩ (recordingPage ++ [.other .report (by simp)])).sent,
        Accepted googleLibraries b := by
  refine ⟨rfl, (uploads_accepted_iff googleLibraries_uuid stringifyBare
    (by simp [StoredIDs]) _).2 ?_⟩
  rintro p i ⟨before, after, heq, rfl⟩ - config hc
  have hconfig : config = sampleConfig .buffered := by
    match before, heq with
    | [], _ => cases hc
    | [_], heq =>
      obtain rfl := (List.cons.inj heq).1
      cases hc
      rfl
    | [_, _], heq =>
      obtain ⟨rfl, htail⟩ := List.cons.inj heq
      obtain rfl := (List.cons.inj htail).1
      cases hc
      rfl
    | _ :: _ :: _ :: before, heq => simp [recordingPage] at heq
  rw [hconfig]
  decide

/-- After `identify('')` the report of such a page is refused. -/
theorem empty_identifier_refused : ¬ ∀ inputs : List Input,
    ∀ b ∈ (run stringifyBare ⟨{}, none⟩ inputs).sent, Accepted googleLibraries b := by
  intro hall
  have hrun := hall (recordingPage ++
    [.other (.identify "") (by simp), .other .report (by simp)]) _ List.mem_cons_self
  have hrequired := (accepted_iff.1 hrun).1
  exact absurd hrequired (by decide)

end Page

end Sdk

end BatRewind
