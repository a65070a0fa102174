import BatRewind.Sdk.Always
import BatRewind.Sdk.Upload
import BatRewind.Sdk.Session
import BatRewind.Session.ShareLinks

/-!
# From the page to the replay

A recording in mode `always`, from `init` over the writer and the workers to the replay behind the
share link.

* `Ingesting req`: the calls of `Ingest`, with the token and the events that they write.
* `Linked id token`: no other token takes the place of this one.
* `SendsAs`: the batches of a run carry the id and the share token of its session.
* `Replayed`: the events in the order of their timestamps.
* **`recorded_is_replayed`**: what rrweb emitted between `init` and `stop` is replayed in the order
  of the timestamps, without loss or repetition, and the share token that `init` chose leads to it,
  without the plugin events.
-/

namespace BatRewind

open Encoding Tables Effects Effects.Prog

/-! ## The calls of `Ingest` -/

/-- **The call is one that `Ingest` makes for the batch.** -/
def Ingesting (req : IngestRequest) : Call → Prop
  | .timeNow | .uuidNew => True
  | .sql (.updateSession s) | .sql (.insertSession s) => s.id = req.sessionID
  | .sql (.setShareToken id token) => id = req.sessionID ∧ token = req.shareToken
  | .sql (.setClientMetadata id _) | .sql (.incrementEventCount id _) => id = req.sessionID
  | .sql (.insertEvents es) =>
    (∀ ev ∈ es, ev.sessionID = req.sessionID) ∧ es.map ReplayEvent.raw = req.events
  | _ => False

section Ingesting

variable {A : (c : Call) → Resp c → Prop} {req : IngestRequest}

theorem allCalls_ingesting (req : IngestRequest) :
    AllCalls A (Ingesting req) (Service.ingest req).run := by
  have hupsert : ∀ now, AllCalls A (Ingesting req)
      (Repository.upsertSession (Service.sessionOf req now)).run := by
    intro now
    refine AllCalls.bind_except (allCalls_sql rfl) fun affected => ?_
    split_ifs
    · exact allCalls_sql rfl
    · exact allCalls_pure _
  have htoken : AllCalls A (Ingesting req) (Service.persistToken req).run := by
    unfold Service.persistToken
    split_ifs
    · exact (allCalls_sql ⟨rfl, rfl⟩).adapt _
    · exact allCalls_pure _
  rw [ingest_eq]
  refine (AllCalls.lift (allCalls_perform trivial)).bind_except fun now => ?_
  refine AllCalls.bind_except (((hupsert now).adapt _).bind_except fun _ =>
    htoken.bind_except fun _ => allCalls_storeClient fun _ => rfl) fun _ => ?_
  exact allCalls_append trivial
    (fun _ => ⟨fun _ => eventsOf_sessionID, map_raw_eventsOf _ _ _⟩) fun _ => rfl

/-- No session is deleted. -/
theorem Ingesting.keepsSessions {q : Stmt} (h : Ingesting req (.sql q)) :
    q.keepsSessions = true := by
  cases q <;> first | rfl | exact h.elim

/-- The events of a session after a call for a batch of another one. -/
theorem Ingesting.eventsOf_other {c : Call} (h : Ingesting req c) {sid : String}
    (hsid : req.sessionID ≠ sid) {db db' : DB} {r : Resp c} (hT : AnyAnswer c db db' r) :
    db'.eventsOf sid = db.eventsOf sid := by
  cases c with
  | timeNow => rw [(answers_timeNow.mp hT).1]
  | uuidNew => rw [(answers_uuidNew.mp hT).1]
  | sql q =>
    cases r with
    | error msg => rw [Answers.refused hT]
    | ok a =>
      obtain ⟨e, -, hrun⟩ := Answers.accepted hT
      rw [DB.eventsOf, DB.eventsOf, (Stmt.run_rows hrun).2.1]
      cases q <;> try first | rfl | exact h.elim
      case insertEvents es =>
        have hnone : es.filter (fun ev => ev.sessionID = sid) = [] := by
          refine List.filter_eq_nil_iff.mpr fun ev hev => ?_
          simpa [h.1 ev hev] using hsid
        show List.filter _ (db.events.rows ++ es) = _
        rw [List.filter_append, hnone, List.append_nil]

/-- A batch of another session adds nothing to the session. -/
theorem spends_ingest_other {sid : String} (hsid : req.sessionID ≠ sid) :
    Spends Healthy (rawEvents sid) (fun _ m => m = 0) (Service.ingest req).run 0 := by
  refine (allCalls_ingesting (A := fun _ _ => True) req).spends fun c db db' r hc hT => ?_
  rw [rawEvents, rawEvents, hc.eventsOf_other hsid hT.1]

end Ingesting

/-! ## The share token -/

/-- Session `id` is kept, and so is the token if it is this one. -/
def Linked (id token : String) (db db' : DB) : Prop :=
  (id ∈ db.sessions.keys → id ∈ db'.sessions.keys) ∧ (Holds id token db → Holds id token db')

instance (id token : String) : Std.Refl (Linked id token) := ⟨fun _ => ⟨fun h => h, fun h => h⟩⟩

instance (id token : String) : IsTrans DB (Linked id token) :=
  ⟨fun _ _ _ h₁ h₂ => ⟨fun h => h₂.1 (h₁.1 h), fun h => h₂.2 (h₁.2 h)⟩⟩

/-- The guarantee: no session is deleted, and session `id` is given this token only. -/
def OneToken (id token : String) (c : Call) (_ : DB) : Prop :=
  ∀ q, c = .sql q → q.keepsSessions = true ∧ ∀ t, q.writtenToken id = some t → t = token

section Linked

variable {id token : String} {req : IngestRequest} {db : DB}

theorem OneToken.linked {c : Call} {db db' : DB} {r : Resp c} (hG : OneToken id token c db)
    (hT : AnyAnswer c db db' r) : Linked id token db db' := by
  rcases anyAnswer_cases hT with ⟨hs, -⟩ | ⟨q, rfl, hrows, -⟩
  · unfold Linked Holds
    rw [hs]
    exact ⟨fun h => h, fun h => h⟩
  · obtain ⟨hkeeps, hwritten⟩ := hG q rfl
    refine ⟨fun hid => ?_, fun hhold => ?_⟩
    · obtain ⟨row, hrow, rfl⟩ := Table.mem_keys.mp hid
      obtain ⟨row', hrow', hid', -⟩ := exists_row_after hkeeps hrows hrow
      exact Table.mem_keys.mpr ⟨row', hrow', hid'⟩
    · obtain ⟨row, hrow, rfl, htok⟩ := hhold
      obtain ⟨row', hrow', hid', htok'⟩ := exists_row_after hkeeps hrows hrow
      refine ⟨row', hrow', hid', ?_⟩
      rw [htok', htok]
      cases hw : q.writtenToken row.id with
      | none => rfl
      | some t => rw [hwritten t hw]; rfl

/-- The batch, if it is of session `id`, carries the token. -/
theorem Ingesting.oneToken {c : Call} (hc : Ingesting req c)
    (hreq : req.sessionID = id → req.shareToken = token) (db : DB) : OneToken id token c db := by
  rintro q rfl
  refine ⟨hc.keepsSessions, fun t ht => ?_⟩
  cases q <;> try cases ht
  case setShareToken i t' =>
    simp only [Stmt.writtenToken, Option.ite_none_right_eq_some, Option.some.injEq] at ht
    obtain ⟨rfl, rfl⟩ := ht
    obtain ⟨hid, htok⟩ := hc
    rw [htok, hreq hid.symm]

/-- Whatever the others do, the program gives session `id` this token only, and it returns with
`P`. -/
abbrev Links {α : Type} (id token : String) (P : α → DB → Prop) (x : Svc α) (db : DB) : Prop :=
  Always Healthy (Linked id token) (OneToken id token) (Succeeds P) x.run db

theorem links_sql {q : Stmt} (hq : ∀ db, OneToken id token (.sql q) db)
    {P : Answer q → DB → Prop} (hP : ∀ e db₁ db₂ a, Linked id token db db₁ →
      q.run e db₁ = .ok (db₂, a) → Linked id token db₁ db₂ → P a db₂)
    (hkept : ∀ a db db', Linked id token db db' → P a db → P a db') :
    Links id token P (sql q) db := by
  refine always_perform fun db₁ h₁ => ⟨hq db₁, fun db₂ r hT db₃ h₃ => ?_⟩
  obtain ⟨a, rfl⟩ := hT.2
  obtain ⟨e, -, hrun⟩ := Answers.accepted hT.1
  exact ⟨a, rfl, hkept a db₂ db₃ h₃ (hP e db₁ db₂ a h₁ hrun ((hq db₁).linked hT.1))⟩

/-- A statement that writes no other token keeps the token. -/
theorem links_sql_holds {q : Stmt} (hq : ∀ db, OneToken id token (.sql q) db)
    (hhold : Holds id token db) : Links id token (fun _ db => Holds id token db) (sql q) db :=
  links_sql hq (fun _ _ _ _ h₁ _ h₂ => h₂.2 (h₁.2 hhold)) fun _ _ _ h => h.2

/-- After `UpsertSession` the session exists. -/
theorem links_upsertSession (s : ReplaySession) :
    Links s.id token (fun _ db => s.id ∈ db.sessions.keys) (Repository.upsertSession s) db := by
  have hone : ∀ {q : Stmt} (db : DB), q.keepsSessions = true → (∀ id, q.writtenToken id = none) →
      OneToken s.id token (.sql q) db := by
    rintro q db hq hw _ ⟨⟩
    exact ⟨hq, fun t ht => by rw [hw] at ht; cases ht⟩
  have hupdate : Links s.id token (fun affected db => affected ≠ 0 → s.id ∈ db.sessions.keys)
      (sql (.updateSession s)) db := by
    refine links_sql (fun db => hone db rfl fun _ => rfl) (fun e db₁ db₂ a _ hrun hkept ha => ?_)
      fun _ _ _ h hmem ha => h.1 (hmem ha)
    refine hkept.1 (Table.find_isSome.mp (Option.ne_none_iff_isSome.mp fun hnone => ha ?_))
    exact (Stmt.run_updateSession hrun).2.mpr hnone
  have hinsert : ∀ db, Links s.id token (fun _ db => s.id ∈ db.sessions.keys)
      (sql (.insertSession s)) db := by
    intro db
    refine links_sql (fun db => hone db rfl fun _ => rfl) (fun e db₁ db₂ a _ hrun _ => ?_)
      fun _ _ _ h => h.1
    show s.id ∈ db₂.sessions.rows.map ReplaySession.id
    rw [(Stmt.run_rows hrun).1]
    exact mem_upsertRow s _
  refine hupdate.bind_succeeds fun affected db₁ haffected => ?_
  split_ifs with hzero
  · exact hinsert db₁
  · exact fun db₂ h₂ => ⟨(), rfl, h₂.1 (haffected hzero)⟩

/-- A session that exists holds the token that the batch persists. -/
theorem links_persistToken (hne : req.shareToken ≠ "") (hid : req.sessionID ∈ db.sessions.keys) :
    Links req.sessionID req.shareToken (fun _ db => Holds req.sessionID req.shareToken db)
      (Service.persistToken req) db := by
  have hc : Ingesting req (.sql (.setShareToken req.sessionID req.shareToken)) := ⟨rfl, rfl⟩
  unfold Service.persistToken
  rw [if_pos hne]
  refine Always.adapt_succeeds (links_sql (hc.oneToken fun _ => rfl)
    (fun e db₁ db₂ a h₁ hrun _ => ?_) fun _ _ _ h => h.2) _
  obtain ⟨row, hrow, hrid⟩ := Table.mem_keys.mp (h₁.1 hid)
  obtain ⟨row', hrow', hid', hnew⟩ := exists_row_after rfl (Stmt.run_rows hrun).1 hrow
  refine ⟨row', hrow', hid'.trans hrid, ?_⟩
  rw [hnew, Stmt.writtenToken, if_pos hrid.symm]
  rfl

/-- **A batch leaves its session with its token.** -/
theorem links_ingest (hne : req.shareToken ≠ "") : Links req.sessionID req.shareToken
    (fun _ db => Holds req.sessionID req.shareToken db) (Service.ingest req) db := by
  have hone : ∀ {c : Call}, Ingesting req c → ∀ db, OneToken req.sessionID req.shareToken c db :=
    fun hc db => hc.oneToken (fun _ => rfl) db
  rw [ingest_eq]
  have htime : Links req.sessionID req.shareToken (fun _ _ => True) timeNow db :=
    Always.lift_succeeds (always_perform fun db₁ _ =>
      ⟨hone (c := .timeNow) trivial db₁, fun _ _ _ _ _ => trivial⟩)
  refine htime.bind_succeeds fun now db₁ _ => ?_
  have hprepare : Links req.sessionID req.shareToken
      (fun _ db => Holds req.sessionID req.shareToken db) (Service.prepare req now) db₁ := by
    refine (Always.adapt_succeeds (links_upsertSession (Service.sessionOf req now)) _).bind_succeeds
      fun _ db₂ hid => ?_
    refine (links_persistToken hne hid).bind_succeeds fun _ db₃ hhold => ?_
    unfold Service.storeClient
    split
    next client _ =>
      exact Always.adapt_succeeds (links_sql_holds (hone (c := .sql (.setClientMetadata _ _)) rfl)
        hhold) _
    next => exact fun db₄ h₄ => ⟨(), rfl, h₄.2 hhold⟩
  refine hprepare.bind_succeeds fun _ db₂ hhold => ?_
  have huuid : Links req.sessionID req.shareToken
      (fun _ db => Holds req.sessionID req.shareToken db) uuidNew db₂ :=
    Always.lift_succeeds (always_perform fun db₃ h₃ => ⟨hone (c := .uuidNew) trivial db₃,
      fun db₄ r hT db₅ h₅ => by
        rw [(answers_uuidNew.mp hT.1).1] at h₅
        exact h₅.2 (h₃.2 hhold)⟩)
  refine huuid.bind_succeeds fun ids db₃ hhold₃ => ?_
  have hinsert : Ingesting req (.sql (.insertEvents (Service.eventsOf req now ids))) :=
    ⟨fun _ => eventsOf_sessionID, map_raw_eventsOf _ _ _⟩
  refine (Always.adapt_succeeds (links_sql_holds (hone hinsert) hhold₃) _).bind_succeeds
    fun _ db₄ hhold₄ => ?_
  exact links_sql_holds (hone (c := .sql (.incrementEventCount _ _)) rfl) hhold₄

end Linked

namespace Sdk

open Blocks

/-! ## The batches of a run -/

/-- The batch carries the id and the share token of the session. -/
def SendsAs {τ : Type} (session : SessionHandle) (b : Batch τ) : Prop :=
  b.payload.sessionId = session.id ∧ b.payload.shareToken = some session.shareToken

section SendsAs

variable {stringify : List (RawEvent ℤ) → String} {maxBytes : ℚ} {sent₀ : List (Batch ℤ)}
  {events : List (RawEvent ℤ)} {s : State ℤ} {session : SessionHandle}

variable (stringify) in
/-- An input sends nothing, or a batch of the session. -/
theorem step_sendsAs (hs : s.session = some session) (a : Action ℤ) :
    ∃ batches, (s.step stringify a).sent = s.sent ++ batches ∧ ∀ b ∈ batches, SendsAs session b := by
  rcases State.step_sent stringify s a with
    heq | ⟨config, session', events, trigger, keepalive, -, hs', -, -, heq⟩
  · exact ⟨[], by simpa using heq, by simp⟩
  · obtain rfl : session = session' := by simpa [hs] using hs'
    refine ⟨[_], heq, fun b hb => ?_⟩
    rw [List.mem_singleton.mp hb]
    exact ⟨rfl, rfl⟩

/-- A recording module keeps its session. -/
theorem Streaming.session_step (h : Streaming stringify maxBytes sent₀ events s)
    (hs : s.session = some session) {a : Action ℤ} (ha : a ≠ .stop) :
    (s.step stringify a).session = some session := by
  cases a with
  | init config handle client => simpa [State.step, State.init, h.initialized] using hs
  | stop => exact absurd rfl ha
  | _ =>
    refine ((Page.session_step stringify s ?_).resolve_right (h.step ha).session).trans hs
    simp

/-- **A recording sends batches of its session only.** -/
theorem Streaming.run_sendsAs (h : Streaming stringify maxBytes sent₀ events s)
    (hs : s.session = some session) {actions : List (Action ℤ)}
    (hrun : ∀ a ∈ actions, a ≠ .stop) :
    (s.run stringify actions).session = some session ∧
      ∃ batches, (s.run stringify actions).sent = s.sent ++ batches ∧
        ∀ b ∈ batches, SendsAs session b := by
  induction actions using List.reverseRecOn with
  | nil => exact ⟨hs, [], by simp [State.run], by simp⟩
  | append_singleton actions a ih =>
    have hbefore : ∀ b ∈ actions, b ≠ .stop := fun b hb => hrun b (List.mem_append_left _ hb)
    have hlast := hrun a (List.mem_append_right _ (List.mem_singleton_self a))
    obtain ⟨hsession, batches, hsent, hnamed⟩ := ih hbefore
    obtain ⟨more, hmore, hnamed'⟩ := step_sendsAs stringify hsession a
    rw [State.run_concat]
    refine ⟨(h.run hbefore).session_step hsession hlast, batches ++ more, ?_, ?_⟩
    · rw [hmore, hsent, List.append_assoc]
    · exact List.forall_mem_append.mpr ⟨hnamed, hnamed'⟩

/-- What `init` and a run without `stop` hand over together with the `stop` that follows. -/
theorem Streaming.stop_batches (h : Streaming stringify maxBytes sent₀ events s)
    (hs : s.session = some session) {sent : List (Batch ℤ)} (hsent : s.sent = sent₀ ++ sent)
    (hnamed : ∀ b ∈ sent, SendsAs session b) :
    ∃ batches, (s.stop stringify).sent = sent₀ ++ batches ∧ (eventsOf batches).Perm events ∧
      ∀ b ∈ batches, SendsAs session b := by
  obtain ⟨first, handed, -, hsent', hhanded, -⟩ := h.handed
  obtain rfl : handed = sent := List.append_cancel_left (hsent'.symm.trans hsent)
  obtain ⟨last, hstop, hlast, -⟩ := h.toRecording.stop stringify
  obtain ⟨more, hmore, hnamed'⟩ := step_sendsAs stringify hs .stop
  obtain rfl : last = more := List.append_cancel_left (hstop.symm.trans hmore)
  refine ⟨handed ++ last, by rw [hstop, hsent, List.append_assoc], ?_, ?_⟩
  · have hevents : eventsOf (handed ++ last) = eventsOf handed ++ s.buffer := by
      rw [← hlast]
      simp [eventsOf]
    rw [hevents]
    exact hhanded.perm
  · exact List.forall_mem_append.mpr ⟨hnamed, hnamed'⟩

end SendsAs

/-! ## Replays -/

/-- **The events are replayed**: each of them once, by their timestamps, which decide the order unless
two are equal. -/
structure Replayed (events rows : List BatRewind.RawEvent) : Prop where
  perm : rows.Perm events
  sorted : rows.Pairwise fun e f => e.timestamp ≤ f.timestamp
  eq_inTimeOrder : (events.map BatRewind.RawEvent.timestamp).Nodup → rows = inTimeOrder events

section Replayed

variable {events rows : List BatRewind.RawEvent}

theorem Replayed.of_perm (hperm : rows.Perm events)
    (hsorted : rows.Pairwise fun e f => e.timestamp ≤ f.timestamp) : Replayed events rows where
  perm := hperm
  sorted := hsorted
  eq_inTimeOrder hdistinct := by
    have htimes : (rows.map BatRewind.RawEvent.timestamp).Nodup :=
      (hperm.map _).nodup_iff.mpr hdistinct
    exact (Sorted.eq_of_perm_of_keys ((inTimeOrder_perm _).trans hperm.symm) hsorted
      (inTimeOrder_sorted _) htimes).symm

theorem Replayed.filter (h : Replayed events rows) (p : BatRewind.RawEvent → Bool) :
    Replayed (events.filter p) (rows.filter p) :=
  .of_perm (h.perm.filter p) (h.sorted.filter p)

end Replayed

/-! ## Main theorem -/

section Replay

variable {lib : Writer.Libraries} {session : SessionHandle} {batches : List (Batch ℤ)}
  {reqs others : List IngestRequest} {db db' : DB}
  {ps : Pool IngestRequest Call Resp (Except String Unit)}

/-- The session holds exactly what its batches held, whatever other sessions record meanwhile. -/
theorem eventsOf_perm {sid : String} (hreqs : ∀ req ∈ reqs, req.sessionID = sid)
    (hothers : ∀ req ∈ others, req.sessionID ≠ sid) (hnew : db.eventsOf sid = [])
    (hruns : PoolRuns (fun _ => Healthy) (ingestPool (reqs ++ others), db) (ps, db'))
    (hfin : Pool.Finished ps) :
    ((db'.eventsOf sid).map ReplayEvent.raw).Perm (reqs.flatMap IngestRequest.events) := by
  let spent : IngestRequest → Multiset BatRewind.RawEvent := fun req =>
    if req.sessionID = sid then req.events else 0
  have hspends : List.Forall₂ (fun t m => Spends Healthy (rawEvents sid) (fun _ m' => m' = 0) t.2 m)
      (ingestPool (reqs ++ others)) ((reqs ++ others).map spent) := by
    rw [ingestPool, List.forall₂_map_left_iff, List.forall₂_map_right_iff, List.forall₂_same]
    intro req _
    by_cases hsid : req.sessionID = sid
    · have h : Spends Healthy (rawEvents sid) (fun _ m => m = 0) (Service.ingest req).run req.events := by
        refine (spends_ingest hsid).imp ?_
        rintro r m ⟨_, _, hm⟩
        exact hm
      simpa [spent, hsid] using h
    · simpa [spent, hsid] using spends_ingest_other hsid
  have hown : reqs.map spent = reqs.map fun req => (req.events : Multiset BatRewind.RawEvent) :=
    List.map_congr_left fun req hreq => if_pos (hreqs req hreq)
  have hrest : (others.map spent).sum = 0 := by
    refine List.sum_eq_zero fun m hm => ?_
    obtain ⟨req, hreq, rfl⟩ := List.mem_map.mp hm
    exact if_neg (hothers req hreq)
  have h := hruns.conserve hspends hfin fun r m hm => hm
  rw [List.map_append, List.sum_append, hrest, add_zero, hown, sum_events, rawEvents, rawEvents,
    hnew] at h
  exact Multiset.coe_eq_coe.mp (by simpa using h)

/-- The session holds the token of its batches. -/
theorem holds_of_ingested (hreqs : ∀ req ∈ reqs, req.sessionID = session.id ∧
      req.shareToken = session.shareToken) (hothers : ∀ req ∈ others, req.sessionID ≠ session.id)
    (hruns : PoolRuns (fun _ => Healthy) (ingestPool (reqs ++ others), db) (ps, db'))
    (hfin : Pool.Finished ps) (hne : reqs ≠ []) : Holds session.id session.shareToken db' := by
  have hrely : ∀ (_ : IngestRequest) c db db' r, True → OneToken session.id session.shareToken c db →
      Healthy c db db' r → True ∧ Linked session.id session.shareToken db db' :=
    fun _ _ _ _ _ _ hG hT => ⟨trivial, hG.linked hT.1⟩
  have hprog : ∀ p ∈ ingestPool (reqs ++ others), Always Healthy
      (Linked session.id session.shareToken) (OneToken session.id session.shareToken)
      (fun _ db => p.1.sessionID = session.id → Holds session.id session.shareToken db) p.2 db := by
    intro p hp
    obtain ⟨req, hreq, rfl⟩ := List.mem_map.mp hp
    rcases List.mem_append.mp hreq with hreq | hreq
    · obtain ⟨hid, htok⟩ := hreqs req hreq
      rw [← hid, ← htok]
      refine (links_ingest (htok ▸ session.shareToken_ne)).imp ?_
      rintro _ _ ⟨_, -, hhold⟩ -
      exact hhold
    · have hne := hothers req hreq
      have hcalls := allCalls_ingesting (A := fun _ _ => True) req
      exact (hcalls.always (fun c db hc => hc.oneToken (fun h => absurd h hne) db) db).imp
        fun _ _ _ h => absurd h hne
  have hend := (hruns.invariant (Q := fun req _ db => req.sessionID = session.id →
    Holds session.id session.shareToken db) hrely trivial hprog).2
  obtain ⟨req, hreq⟩ := List.exists_mem_of_ne_nil reqs hne
  have hlabels : ps.map Prod.fst = reqs ++ others := by
    rw [hruns.labels, ingestPool, List.map_map]
    exact List.map_id _
  obtain ⟨t, ht, rfl⟩ := List.mem_map.mp (hlabels ▸ List.mem_append_left others hreq)
  obtain ⟨r, hr⟩ := hfin t ht
  have hpost := hend t ht
  rw [hr] at hpost
  exact hpost db' (Std.Refl.refl db') (hreqs _ hreq).1

/-- What is replayed behind a share token. -/
theorem getPublicEvents_of_resolves {token sid : String} {db : DB} (h : Resolves token sid db)
    {db' : DB} {evs : List ReplayEvent}
    (hget : Runs Healthy (Service.getPublicEvents token).run db db' (.ok evs)) :
    ∃ rows, Runs Healthy (Repository.getEvents sid).run db db (.ok rows) ∧
      evs = rows.filter ReplayEvent.isPublic := by
  rcases runs_bind_except.mp hget with ⟨db₁, sess, hsess, hrest⟩ | ⟨msg, -, hmsg⟩
  · obtain ⟨sess', hok, hid⟩ := h.2 _ _ hsess
    obtain rfl := Except.ok.inj hok
    obtain ⟨hans, -⟩ := runs_perform.mp hsess
    obtain ⟨e, -, hrun⟩ := hans.accepted
    have hsame : db₁ = db := by
      simp only [Stmt.run] at hrun
      split at hrun <;> cases hrun
      rfl
    rcases runs_bind_except.mp hrest with ⟨db₂, rows, hrows, -, hevs⟩ | ⟨msg, -, hmsg⟩
    · refine ⟨rows, ?_, ?_⟩
      · obtain ⟨rfl, hperm, hsorted⟩ := getEvents_runs.mp hrows
        rw [hsame, hid] at hperm
        exact getEvents_runs.mpr ⟨rfl, hperm, hsorted⟩
      · rw [← stripPlugins_eq_filter]
        exact Except.ok.inj hevs
    · cases hmsg
  · cases hmsg

variable {stringify : List (RawEvent ℤ) → String} {s₀ s : State ℤ}

/-- **What was emitted is replayed.** A recording in mode `always` from `init` to `stop`, of a session
that has no events: if the writer accepts its batches and the workers ingest each of them once, in
any interleaving with each other and with batches of other sessions, then the session is replayed as
the emitted events in the order of their timestamps. The share token, which `report` returns from
the start, resolves to the session, and the replay behind it is the same without the plugin
events. -/
theorem recorded_is_replayed (hreach : s₀.Reachable stringify) (hidle : s₀.initialized = false)
    (config : Config ℤ) (hmode : config.mode = some .always) (session : SessionHandle)
    (client : ClientMeta String) (actions : List (Action ℤ)) (hrun : ∀ a ∈ actions, a ≠ .stop)
    (hs : s = (s₀.init config session client).run stringify actions)
    (hsent : (s.stop stringify).sent = s₀.sent ++ batches)
    (hreqs : List.Forall₂ (Ingested lib) batches reqs)
    (hothers : ∀ req ∈ others, req.sessionID ≠ session.id) (hnew : db.eventsOf session.id = [])
    (hruns : PoolRuns (fun _ => Healthy) (ingestPool (reqs ++ others), db) (ps, db'))
    (hfin : Pool.Finished ps) :
    (∀ db'' rows, Runs Healthy (Repository.getEvents session.id).run db' db'' (.ok rows) →
      Replayed ((emitted actions).map RawEvent.stored) (rows.map ReplayEvent.raw)) ∧
    (∀ k, ((s₀.init config session client).run stringify (actions.take k)).report stringify
      |>.2.shareToken = session.shareToken) ∧
    (emitted actions ≠ [] → Resolves session.shareToken session.id db' ∧
      ∀ db'' evs, Runs Healthy (Service.getPublicEvents session.shareToken).run db' db'' (.ok evs) →
        Replayed (((emitted actions).map RawEvent.stored).filter fun e => e.type ≠ 6)
          (evs.map ReplayEvent.raw)) := by
  have hidle' : s₀.Idle := (State.idle_or_initialized hreach).resolve_right (by simp [hidle])
  have hinit := streaming_init stringify hidle' config hmode session client
  have hstart : (s₀.init config session client).session = some session ∧
      (s₀.init config session client).sent = s₀.sent := by
    rw [hidle']
    simp [State.init, State.isBuffered, hmode]
  -- what was emitted is in the batches, and the batches are of the session
  have hbatches : (eventsOf batches).Perm (emitted actions) ∧ ∀ b ∈ batches, SendsAs session b := by
    obtain ⟨hsession, sent, hrunsent, hnamed⟩ := hinit.run_sendsAs hstart.1 hrun
    have hend := hinit.run hrun
    rw [List.nil_append, ← hs] at hend
    rw [← hs] at hsession hrunsent
    obtain ⟨batches', hstop, hperm, hnamed'⟩ :=
      hend.stop_batches hsession (hrunsent.trans (by rw [hstart.2])) hnamed
    obtain rfl : batches' = batches := List.append_cancel_left (hstop.symm.trans hsent)
    exact ⟨hperm, hnamed'⟩
  obtain rfl := map_request_of_ingested hreqs
  have hown : ∀ req ∈ batches.map fun b => b.payload.request, req.sessionID = session.id ∧
      req.shareToken = session.shareToken := by
    intro req hreq
    obtain ⟨b, hb, rfl⟩ := List.mem_map.mp hreq
    obtain ⟨hid, htok⟩ := hbatches.2 b hb
    exact ⟨hid, by rw [BatchPayload.request, htok]; rfl⟩
  have hevents : (batches.map fun b => b.payload.request).flatMap IngestRequest.events =
      (eventsOf batches).map RawEvent.stored := by
    rw [List.flatMap_map, eventsOf, List.map_flatMap]
    rfl
  have hstored := eventsOf_perm (fun req hreq => (hown req hreq).1) hothers hnew hruns hfin
  rw [hevents] at hstored
  have hall := hstored.trans (hbatches.1.map RawEvent.stored)
  -- so a replay is a permutation of them that is in the order of the timestamps
  have hreplay : ∀ db'' rows, Runs Healthy (Repository.getEvents session.id).run db' db'' (.ok rows) →
      Replayed ((emitted actions).map RawEvent.stored) (rows.map ReplayEvent.raw) := by
    intro db'' rows hget
    obtain ⟨-, hperm, hkeys⟩ := getEvents_runs.mp hget
    exact .of_perm ((hperm.map ReplayEvent.raw).trans hall)
      (List.pairwise_map.mpr (hkeys.imp timestamp_le))
  refine ⟨hreplay, fun k => ?_, fun hne => ?_⟩
  · have hbefore : ∀ a ∈ actions.take k, a ≠ .stop := fun a ha => hrun a (List.mem_of_mem_take ha)
    simp [State.report, (hinit.run_sendsAs hstart.1 hbefore).1]
  · have hreqsne : batches.map (fun b => b.payload.request) ≠ [] := by
      intro hnil
      rw [List.map_eq_nil_iff.mp hnil] at hbatches
      exact hne (List.nil_perm.mp hbatches.1)
    have hres := (holds_of_ingested hown hothers hruns hfin hreqsne).resolves
    refine ⟨hres, fun db'' evs hget => ?_⟩
    obtain ⟨rows, hrows, rfl⟩ := getPublicEvents_of_resolves hres hget
    have hpublic : (rows.filter ReplayEvent.isPublic).map ReplayEvent.raw =
        (rows.map ReplayEvent.raw).filter fun e => e.type ≠ 6 := by
      rw [List.filter_map]
      rfl
    rw [hpublic]
    exact (hreplay _ _ hrows).filter _

end Replay

/-- The body of the batch with one event that a sample recording sends. -/
def streamRequest (client : Option (ClientMeta String)) (event : BatRewind.RawEvent) :
    IngestRequest :=
  { reportRequest client with trigger := "stream", events := [event] }

/-- The Meta event is stored after the FullSnapshot that went ahead of it, and replayed before it. -/
theorem recorded_is_replayed_ahead : ∃ db' ps, PoolRuns (fun _ => Healthy)
    (ingestPool [streamRequest (some sampleClient) ⟨2, .obj [], 2⟩,
      streamRequest none ⟨4, .obj [], 1⟩], DB.empty) (ps, db') ∧
    (∀ db'' rows, Runs Healthy (Repository.getEvents sampleID).run db' db'' (.ok rows) →
      rows.map ReplayEvent.raw = [⟨4, .obj [], 1⟩, ⟨2, .obj [], 2⟩]) ∧
    Resolves "token" sampleID db' := by
  let actions : List (Action ℤ) := [.emit (bareEvent 4 1) false 1, .emit (bareEvent 2 2) false 2]
  let ended := State.stop stringifyBare (State.run stringifyBare
    (State.init {} (sampleConfig .always) sampleHandle sampleClient) actions)
  have hreqs : List.Forall₂ (Ingested sampleLibraries) ended.sent
      [streamRequest (some sampleClient) ⟨2, .obj [], 2⟩, streamRequest none ⟨4, .obj [], 1⟩] :=
    .cons (ingested_request (by decide) (by decide)) <|
      .cons (ingested_request (by decide) (by decide)) .nil
  obtain ⟨db₁, hrun₁, hst₁⟩ := ingest_runs DB.empty
    (streamRequest (some sampleClient) ⟨2, .obj [], 2⟩) 0 (fun _ => sampleEventID false) (by decide)
    fun _ r hr => by cases hr
  have hids : ((db₁.events.rows ++ Service.eventsOf (streamRequest none ⟨4, .obj [], 1⟩) 1
      fun _ => sampleEventID true).map ReplayEvent.id).Nodup := by
    rw [hst₁.events]
    decide
  have htok : ∀ r ∈ db₁.sessions.rows, r.id = sampleID := by
    intro r hr
    rw [hst₁.sessions] at hr
    rcases Table.mem_put.mp hr with rfl | ⟨hr, -⟩
    · rfl
    · cases hr
  obtain ⟨db₂, hrun₂, -⟩ := ingest_runs db₁ (streamRequest none ⟨4, .obj [], 1⟩) 1
    (fun _ => sampleEventID true) hids fun _ r hr _ => htok r hr
  have hruns := (Runs.pool (fun _ => Healthy) (streamRequest (some sampleClient) ⟨2, .obj [], 2⟩)
      (hrun₁.mono fun _ _ _ _ => HealthyAt.healthy) []
      [(streamRequest none ⟨4, .obj [], 1⟩, (Service.ingest _).run)]).trans
    (Runs.pool (fun _ => Healthy) (streamRequest none ⟨4, .obj [], 1⟩)
      (hrun₂.mono fun _ _ _ _ => HealthyAt.healthy)
      [(streamRequest (some sampleClient) ⟨2, .obj [], 2⟩, .ret (.ok ()))] [])
  have hreach : State.Reachable stringifyBare ({} : State ℤ) := ⟨[], rfl⟩
  have hothers : ∀ req ∈ ([] : List IngestRequest), req.sessionID ≠ sampleHandle.id := by simp
  obtain ⟨hreplay, -, hlink⟩ := recorded_is_replayed hreach rfl (sampleConfig .always) rfl
    sampleHandle sampleClient actions (by simp [actions]) rfl rfl hreqs hothers rfl hruns
    (by simp [Pool.Finished])
  refine ⟨db₂, _, hruns, fun db'' rows hget => ?_, (hlink (by simp [actions, emitted, Action.events])).1⟩
  rw [(hreplay db'' rows hget).eq_inTimeOrder (by decide)]
  rfl

end Sdk

end BatRewind
