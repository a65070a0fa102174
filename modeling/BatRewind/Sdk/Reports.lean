import BatRewind.Sdk.Replay
import BatRewind.Sdk.Snapshots

/-!
# The replay of reports

In mode `buffered` an upload holds the whole rolling buffer, so a session is a pile of windows that
overlap. Some may be lost on the way, and the stream delivers some more than once.

* `Windows P sid`: the session holds whole uploads only; **`windows_ingest`**: so it stays, however
  the statements of the workers are interleaved and whichever of them are refused.
* `AtRest`: no checkout of rrweb is half emitted when the rolling buffer is uploaded.
* **`reports_replayable`**: whatever subset of the uploads was stored and however often, every
  incremental event of the replay is preceded by a FullSnapshot.
-/

namespace BatRewind

open Encoding Tables Effects Effects.Prog

/-! ## Whole uploads -/

/-- **The session consists of whole lists** that satisfy `P`. -/
def Windows (P : List RawEvent → Prop) (sid : String) (db : DB) : Prop :=
  ∃ ls : List (List RawEvent), (∀ l ∈ ls, P l) ∧
    ((db.eventsOf sid).map ReplayEvent.raw).Perm ls.flatten

section Windows

variable {P : List RawEvent → Prop} {sid : String} {db db' : DB}

theorem windows_nil (h : db.eventsOf sid = []) : Windows P sid db := ⟨[], by simp, by simp [h]⟩

/-- A call of `Ingest` adds a whole batch, or nothing. -/
theorem Windows.step {req : IngestRequest} {c : Call} {r : Resp c} (h : Windows P sid db)
    (hc : Ingesting req c) (hreq : req.sessionID = sid → P req.events)
    (hT : AnyAnswer c db db' r) : Windows P sid db' := by
  by_cases hsid : req.sessionID = sid
  swap
  · obtain ⟨ls, hls, hperm⟩ := h
    exact ⟨ls, hls, by rwa [hc.eventsOf_other hsid hT]⟩
  cases c with
  | timeNow => rwa [(answers_timeNow.mp hT).1]
  | uuidNew => rwa [(answers_uuidNew.mp hT).1]
  | sql q =>
    cases r with
    | error msg => rwa [Answers.refused hT]
    | ok a =>
      obtain ⟨e, -, hrun⟩ := Answers.accepted hT
      obtain ⟨ls, hls, hperm⟩ := h
      unfold Windows
      rw [DB.eventsOf, (Stmt.run_rows hrun).2.1]
      cases q <;> try first | exact ⟨ls, hls, hperm⟩ | exact hc.elim
      case insertEvents es =>
        have hall : es.filter (fun ev => ev.sessionID = sid) = es :=
          List.filter_eq_self.mpr fun ev hev => by simp [hc.1 ev hev, hsid]
        refine ⟨ls ++ [req.events], ?_, ?_⟩
        · exact List.forall_mem_append.mpr ⟨hls, List.forall_mem_singleton.mpr (hreq hsid)⟩
        · show (((db.events.rows ++ es).filter _).map _).Perm _
          rw [List.filter_append, hall, List.map_append, hc.2, List.flatten_append,
            List.flatten_singleton]
          exact hperm.append_right _

/-- **The workers store whole batches**, at every point of every interleaving, whatever statements
are refused. -/
theorem windows_ingest {reqs : List IngestRequest}
    (hreqs : ∀ req ∈ reqs, req.sessionID = sid → P req.events)
    {ps : Pool IngestRequest Call Resp (Except String Unit)} (h : Windows P sid db)
    (hruns : PoolRuns (fun _ => AnyAnswer) (ingestPool reqs, db) (ps, db')) :
    Windows P sid db' := by
  let G : IngestRequest → Call → DB → Prop := fun _ c _ =>
    ∃ req, Ingesting req c ∧ (req.sessionID = sid → P req.events)
  have hstep : ∀ (i : IngestRequest) c db db' r, Windows P sid db → G i c db →
      AnyAnswer c db db' r → Windows P sid db' ∧ True :=
    fun _ _ _ _ _ hwin ⟨_, hc, hreq⟩ hT => ⟨hwin.step hc hreq hT, trivial⟩
  have hprog : ∀ p ∈ ingestPool reqs,
      Always AnyAnswer (fun _ _ => True) (G p.1) (fun _ _ => True) p.2 db := by
    intro p hp
    obtain ⟨req, hreq, rfl⟩ := List.mem_map.mp hp
    exact (allCalls_ingesting (A := fun _ _ => True) req).always
      (fun c db hc => ⟨req, hc, hreqs req hreq⟩) db
  have : Std.Refl fun _ _ : DB => True := ⟨fun _ => trivial⟩
  have : IsTrans DB fun _ _ => True := ⟨fun _ _ _ _ _ => trivial⟩
  exact (hruns.invariant (Q := fun _ _ _ => True) hstep h hprog).1

end Windows

namespace Sdk

open Blocks

/-! ## The uploads of a run -/

/-- **No checkout is half emitted when the rolling buffer is uploaded.** -/
def AtRest {τ : Type} (actions : List (Action τ)) : Prop :=
  ∀ pre a post, actions = pre ++ a :: post → a = .report ∨ a = .error → Emission (emits pre)

theorem AtRest.left {τ : Type} {actions more : List (Action τ)} (h : AtRest (actions ++ more)) :
    AtRest actions := by
  rintro pre a post rfl ha
  exact h pre a (post ++ more) (by simp) ha

theorem Replayable.left {τ : Type} {events more : List (RawEvent τ)}
    (h : Replayable (events ++ more)) : Replayable events := by
  rintro pre e post rfl he
  exact h pre e (post ++ more) (by simp) he

section Uploads

variable {τ : Type} [NatCast τ] [LE τ] [DecidableLE τ] [Sub τ] {session : SessionHandle}
  {s : State τ} {bufferMs : τ} {events d : List (RawEvent τ × Bool)}
  {blocks : List (List (RawEvent τ × Bool))} (stringify : List (RawEvent τ) → String)

/-- Only `report` and the error handler send. -/
theorem Buffering.step_quiet (h : Buffering session s) (hroll : Rolling bufferMs events d blocks s)
    {a : Action τ} (ha : a ≠ .stop) (hquiet : ¬ (a = .report ∨ a = .error)) :
    (s.step stringify a).sent = s.sent := by
  cases a with
  | stop => exact absurd rfl ha
  | report => exact absurd (Or.inl rfl) hquiet
  | error => exact absurd (Or.inr rfl) hquiet
  | init config handle client => exact congrArg State.sent (if_pos hroll.initialized)
  | timer => simp [State.step, h.timer]
  | visibilityChange hidden => simp [State.step, State.onVisibilityChange, hroll.mode]
  | beforeUnload => simp [State.step, State.onBeforeUnload, hroll.mode]
  | identify identifier => rfl
  | emit event isCheckout now =>
    simp only [State.step, State.emit, hroll.recorder, State.emitBuffered]
    split_ifs <;> rfl

/-- **Every upload of a run is replayable** and keeps the order of emission. -/
theorem Buffering.run_replayable (h : Buffering session s) (hroll : Rolling bufferMs [] [] [] s)
    {actions : List (Action τ)} (hrun : ∀ a ∈ actions, a ≠ .stop)
    (hstart : Replayable (emitted actions)) (hrest : AtRest actions) :
    Buffering session (s.run stringify actions) ∧
      ∃ batches : List (Batch τ), (s.run stringify actions).sent = s.sent ++ batches ∧
        ∀ b ∈ batches, b.payload.sessionId = session.id ∧ Replayable b.payload.events ∧
          b.payload.events.Sublist (emitted actions) := by
  induction actions using List.reverseRecOn with
  | nil => exact ⟨h, [], by simp [State.run], by simp⟩
  | append_singleton actions a ih =>
    have ha : a ≠ .stop := hrun a (List.mem_append_right _ (List.mem_singleton_self a))
    have hinit : ∀ b ∈ actions, b ≠ .stop := fun b hb => hrun b (List.mem_append_left _ hb)
    rw [emitted_concat] at hstart ⊢
    obtain ⟨hbuf, batches, hsent, hbatches⟩ := ih hinit hstart.left hrest.left
    obtain ⟨d, blocks, hend⟩ := hroll.run stringify hinit
    rw [List.nil_append] at hend
    obtain ⟨hbuf', hsends⟩ := hbuf.step stringify hend ha
    rw [State.run_concat]
    have hbefore : ∀ b ∈ batches, b.payload.sessionId = session.id ∧ Replayable b.payload.events ∧
        b.payload.events.Sublist (emitted actions ++ a.events) := fun b hb =>
      ⟨(hbatches b hb).1, (hbatches b hb).2.1,
        (hbatches b hb).2.2.trans (List.sublist_append_left _ _)⟩
    refine ⟨hbuf', ?_⟩
    by_cases hupload : a = .report ∨ a = .error
    swap
    · exact ⟨batches, (hbuf.step_quiet stringify hend ha hupload).trans hsent, hbefore⟩
    rcases hsends with hsame | ⟨b, hsent', hbsid, hbevents⟩
    · exact ⟨batches, hsame.trans hsent, hbefore⟩
    · refine ⟨batches ++ [b], by rw [hsent', hsent, List.append_assoc], ?_⟩
      refine List.forall_mem_append.mpr ⟨hbefore, List.forall_mem_singleton.mpr ⟨hbsid, ?_, ?_⟩⟩
      · rw [hbevents]
        exact hend.replayable (by rw [map_fst_emits]; exact hstart.left)
          (hrest actions a [] rfl hupload)
      · rw [hbevents, hend.flatten_segments]
        exact (List.drop_sublist _ _).trans (List.sublist_append_left _ _)

end Uploads

/-! ## Main theorem -/

/-- Every incremental row is preceded by a FullSnapshot. -/
def Playable (rows : List ReplayEvent) : Prop :=
  ∀ pre row post, rows = pre ++ row :: post → row.type = incremental →
    ∃ f ∈ pre, f.type = fullSnapshot

/-- Neither kind of event is a plugin event. -/
theorem Playable.filter_isPublic {rows : List ReplayEvent} (h : Playable rows) :
    Playable (rows.filter ReplayEvent.isPublic) := by
  intro pre row post heq hrow
  obtain ⟨before, after, rfl, hbefore, hafter⟩ := List.filter_eq_append_iff.mp heq
  obtain ⟨skipped, rest, rfl, hskipped, -, -⟩ := List.filter_eq_cons_iff.mp hafter
  obtain ⟨f, hf, hsnap⟩ := h (before ++ skipped) row rest (by simp) hrow
  have hpublic : f.isPublic = true := by
    simp [ReplayEvent.isPublic, hsnap, fullSnapshot, rrwebPluginType]
  refine ⟨f, ?_, hsnap⟩
  rcases List.mem_append.mp hf with hf | hf
  · rw [← hbefore]
    exact List.mem_filter.mpr ⟨hf, hpublic⟩
  · exact absurd hpublic (hskipped f hf)

/-- The snapshots of an emission are older than the incremental events behind them. -/
def SnapshotsFirst (events : List (RawEvent ℤ)) : Prop :=
  events.Pairwise fun f e => f.type = fullSnapshot → e.type = incremental →
    f.timestamp < e.timestamp

/-- The event is in the order of emission behind a snapshot of its own upload. -/
theorem exists_older_snapshot {events : List (RawEvent ℤ)} (hreplay : Replayable events)
    (htimes : SnapshotsFirst events) {e : RawEvent ℤ} (he : e ∈ events)
    (htype : e.type = incremental) :
    ∃ f ∈ events, f.type = fullSnapshot ∧ f.timestamp < e.timestamp := by
  obtain ⟨pre, post, rfl⟩ := List.append_of_mem he
  obtain ⟨f, hf, hsnap⟩ := hreplay pre e post rfl htype
  obtain ⟨-, -, hcross⟩ := List.pairwise_append.mp htimes
  exact ⟨f, List.mem_append_left _ hf, hsnap, hcross f hf e List.mem_cons_self hsnap htype⟩

section Reports

variable {lib : Writer.Libraries} {session : SessionHandle} {batches : List (Batch ℤ)}
  {reqs : List IngestRequest} {db db' : DB}
  {ps : Pool IngestRequest Call Resp (Except String Unit)}
  {stringify : List (RawEvent ℤ) → String} {s₀ s : State ℤ}

/-- Rows of whole uploads, in the order of replay. -/
theorem playable_of_windows {rows : List ReplayEvent}
    (hbatches : ∀ b ∈ batches, Replayable b.payload.events ∧ SnapshotsFirst b.payload.events)
    (hwin : Windows (fun l => ∃ b ∈ batches, l = b.payload.events.map RawEvent.stored) session.id db)
    (hget : Runs Healthy (Repository.getEvents session.id).run db db' (.ok rows)) :
    Playable rows := by
  obtain ⟨-, hrows, hsorted⟩ := getEvents_runs.mp hget
  obtain ⟨ls, hls, hperm⟩ := hwin
  have hmem : ∀ ev, ev ∈ rows.map ReplayEvent.raw ↔ ∃ l ∈ ls, ev ∈ l := fun ev => by
    rw [((hrows.map _).trans hperm).mem_iff, List.mem_flatten]
  rintro pre row post rfl hrow
  obtain ⟨l, hl, hrowl⟩ := (hmem row.raw).mp (List.mem_map_of_mem (by simp))
  obtain ⟨b, hb, rfl⟩ := hls l hl
  obtain ⟨e, he, hraw⟩ := List.mem_map.mp hrowl
  have hetype : e.type = incremental := (congrArg BatRewind.RawEvent.type hraw).trans hrow
  have hetime : e.timestamp = row.timestamp := congrArg BatRewind.RawEvent.timestamp hraw
  -- the upload that the row came with holds an older snapshot
  obtain ⟨f, hf, hsnap, hlt⟩ :=
    exists_older_snapshot (hbatches b hb).1 (hbatches b hb).2 he hetype
  obtain ⟨row', hrow', hraw'⟩ :=
    List.mem_map.mp ((hmem f.stored).mpr ⟨_, hl, List.mem_map_of_mem hf⟩)
  have hftype : row'.type = fullSnapshot := (congrArg BatRewind.RawEvent.type hraw').trans hsnap
  have hftime : row'.timestamp = f.timestamp := congrArg BatRewind.RawEvent.timestamp hraw'
  have hlt' : row'.timestamp < row.timestamp := by omega
  refine ⟨row', ?_, hftype⟩
  obtain ⟨-, hrest, -⟩ := List.pairwise_append.mp hsorted
  rcases List.mem_append.mp hrow' with hpre | hpost
  · exact hpre
  rcases List.mem_cons.mp hpost with rfl | hpost
  · exact absurd hlt' (lt_irrefl _)
  · have hle := timestamp_le (List.rel_of_pairwise_cons hrest hpost)
    exact absurd hle (by simpa using hlt')

/-- **A report can always be replayed.** A run in mode `buffered` from `init` on, in which rrweb
emits a FullSnapshot before any incremental event, no upload falls into a checkout and snapshots are
older than the incremental events behind them. Let the workers ingest any of its uploads any number
of times, beside batches of other sessions, in any interleaving and with any statements refused:
at every point every incremental event of the replay is preceded by a FullSnapshot, also behind a
share token. -/
theorem reports_replayable (hreach : s₀.Reachable stringify) (hidle : s₀.initialized = false)
    (config : Config ℤ) (hmode : config.mode ≠ some .always) (session : SessionHandle)
    (client : ClientMeta String) (actions : List (Action ℤ)) (hrun : ∀ a ∈ actions, a ≠ .stop)
    (hs : s = (s₀.init config session client).run stringify actions)
    (hstart : Replayable (emitted actions)) (hrest : AtRest actions)
    (htimes : SnapshotsFirst (emitted actions)) (hsent : s.sent = s₀.sent ++ batches)
    (hreqs : ∀ req ∈ reqs, req.sessionID = session.id → ∃ b ∈ batches, Ingested lib b req)
    (hnew : db.eventsOf session.id = [])
    (hruns : PoolRuns (fun _ => AnyAnswer) (ingestPool reqs, db) (ps, db')) :
    (∀ db'' rows, Runs Healthy (Repository.getEvents session.id).run db' db'' (.ok rows) →
      Playable rows) ∧
    ∀ token, Resolves token session.id db' → ∀ db'' evs,
      Runs Healthy (Service.getPublicEvents token).run db' db'' (.ok evs) → Playable evs := by
  have hidle' : s₀.Idle := (State.idle_or_initialized hreach).resolve_right (by simp [hidle])
  obtain ⟨hbuf, hsame⟩ := buffering_init hidle' config hmode session client
  obtain ⟨-, batches', hsent', hbatches⟩ := hbuf.run_replayable stringify
    (rolling_init hidle' config hmode session client) hrun hstart hrest
  obtain rfl : batches' = batches := by
    rw [← hs, hsame, hsent] at hsent'
    exact (List.append_cancel_left hsent').symm
  have hwin : Windows (fun l => ∃ b ∈ batches', l = b.payload.events.map RawEvent.stored) session.id
      db' := by
    refine windows_ingest (fun req hreq hid => ?_) (windows_nil hnew) hruns
    obtain ⟨b, hb, hingested⟩ := hreqs req hreq hid
    exact ⟨b, hb, by rw [hingested.eq_request]; rfl⟩
  have hgood : ∀ b ∈ batches', Replayable b.payload.events ∧ SnapshotsFirst b.payload.events :=
    fun b hb => ⟨(hbatches b hb).2.1, htimes.sublist (hbatches b hb).2.2⟩
  refine ⟨fun db'' rows hget => playable_of_windows hgood hwin hget, ?_⟩
  intro token hres db'' evs hget
  obtain ⟨rows, hrows, rfl⟩ := getPublicEvents_of_resolves hres hget
  exact (playable_of_windows hgood hwin hrows).filter_isPublic

end Reports

/-- A snapshot, a click and a report, delivered twice; one delivery was ingested so far. -/
theorem reports_replayable_redelivered : ∃ db' ps req, PoolRuns (fun _ => AnyAnswer)
    (ingestPool [req, req], DB.empty) (ps, db') ∧ db'.eventsOf sampleID ≠ [] ∧
    ∀ db'' rows, Runs Healthy (Repository.getEvents sampleID).run db' db'' (.ok rows) →
      Playable rows := by
  let actions : List (Action ℤ) :=
    [.emit (bareEvent 2 0) false 0, .emit (bareEvent 3 1) false 1, .report]
  let req : IngestRequest :=
    { reportRequest (some sampleClient) with events := [⟨2, .obj [], 0⟩, ⟨3, .obj [], 1⟩] }
  have hids : ((DB.empty.events.rows ++ Service.eventsOf req 0 fun i => sampleEventID (i != 0)).map
      ReplayEvent.id).Nodup := by decide
  obtain ⟨db₁, hrun, hst⟩ := ingest_runs DB.empty req 0 (fun i => sampleEventID (i != 0)) hids
    fun _ r hr => by cases hr
  have hruns := Runs.pool (fun _ => AnyAnswer) req (hrun.mono fun _ _ _ _ h => h.healthy.1) []
    [(req, (Service.ingest req).run)]
  have hreach : State.Reachable stringifyBare ({} : State ℤ) := ⟨[], rfl⟩
  have hrest : AtRest actions := by
    intro pre a post heq ha
    rcases pre with _ | ⟨e₁, _ | ⟨e₂, _ | ⟨e₃, pre⟩⟩⟩ <;>
      simp only [actions, List.nil_append, List.cons_append, List.cons.injEq] at heq
    · obtain ⟨rfl, -⟩ := heq
      simp at ha
    · obtain ⟨-, rfl, -⟩ := heq
      simp at ha
    · obtain ⟨rfl, rfl, -⟩ := heq
      exact .plain _ _ (.plain _ _ .nil)
    · simp at heq
  have hreqs : ∀ req' ∈ [req, req], req'.sessionID = sampleHandle.id →
      ∃ b ∈ (State.run stringifyBare (State.init {} (sampleConfig .buffered) sampleHandle
        sampleClient) actions).sent, Ingested sampleLibraries b req' := by
    intro req' hreq' _
    obtain rfl : req' = req := by simpa using hreq'
    exact ⟨_, List.mem_cons_self, ingested_request (by decide) (by decide)⟩
  refine ⟨db₁, _, req, hruns, ?_, (reports_replayable hreach rfl (sampleConfig .buffered)
    (by decide) sampleHandle sampleClient actions (by simp [actions]) rfl (replayable_of_snapshot rfl)
    hrest ?_ rfl hreqs rfl hruns).1⟩
  · rw [DB.eventsOf, hst.events]
    decide
  · show SnapshotsFirst [bareEvent 2 0, bareEvent 3 1]
    simp [SnapshotsFirst]

end Sdk

end BatRewind
