import BatRewind.Lib.Interleaving
import BatRewind.Worker.Backlog
import BatRewind.Worker.Reclaim

/-!
# The life of a worker process

`Start` of `internal/worker/service.go` with its goroutines: the purge loop, the monitor and the
workers, which all count in one `WaitGroup` and stop when the context is cancelled. The database
and the stream are an arbitrary store with an arbitrary handler.

* `purge`, `Read`, `runOnce`: what the loops do between two `select`s.
* `Process`, `GoStep`: the process and the steps of its goroutines; `OutsideStep`: a signal, a tick
  of a clock, a change of the store.
* `Settles`: what a program takes from the stream, it acknowledges on every path.
* `Sound`: the counter is the number of goroutines that have not returned, and every message taken is
  acknowledged or will be.
* `descends`: after the cancellation every step of a goroutine descends in a well-founded order.
* **`graceful_shutdown`**: after the cancellation the process makes finitely many steps of its own
  and can stop at no other point than at the end of `Start`, where all goroutines have returned and
  every message taken from the stream was acknowledged.
-/

namespace BatRewind

namespace Lifecycle

open Encoding Tables Effects Effects.Prog Reclaim Worker WorkerPool

/-! ## The loops -/

/-- The log entries of the loops. -/
inductive LoopLog where
  /-- "Read error" -/
  | readError (worker : ℕ) (error : String)
  /-- "Retention purge failed" -/
  | purgeFailed (error : String)
  /-- "Retention purge removed sessions" -/
  | purgeRemoved (count : ℕ)

/-- A call of a goroutine. -/
inductive GoCall where
  | reclaim (c : ReclaimCall)
  /-- `XREADGROUP` with `>` and `COUNT 1`. -/
  | readNew
  | slog (entry : LoopLog)

@[reducible] def GoResp : GoCall → Type
  | .reclaim c => ReclaimResp c
  | .readNew => Except String (Option Entry)
  | .slog _ => Unit

abbrev GoProg := Prog GoCall GoResp

/-- A program of `reclaimPending`. -/
def ofReclaim {α : Type} (p : ReclaimProg α) : GoProg α :=
  (p : Prog ReclaimCall (fun c => GoResp (.reclaim c)) α).hoist .reclaim

/-- A program of a worker. -/
def ofWorker {α : Type} (p : WorkerProg α) : GoProg α := ofReclaim (asWorker p)

/-- `time.Duration(RetentionDays) * 24 * time.Hour`, in nanoseconds. -/
def retention (retentionDays : ℤ) : ℤ := int64 (int64 (retentionDays * 24) * 3600000000000)

/-- The function `purge` of `purgeLoop`. -/
def purge (retentionDays : ℤ) : GoProg Unit := do
  match ← ofWorker (Worker.svc (Service.purgeOlderThan (retention retentionDays))) with
  | .error err => perform (R := GoResp) (.slog (.purgeFailed err))
  | .ok deleted =>
    if deleted > 0 then perform (R := GoResp) (.slog (.purgeRemoved deleted)) else pure ()

/-- The message of an entry; an entry without a payload is acknowledged and left out. -/
def message (m : Entry) : GoProg (Except String (Option (String × Except String Json))) :=
  match m.payload with
  | none => do
    ofWorker (Worker.ack m.id)
    pure (.ok none)
  | some data => pure (.ok (some (m.id, data)))

/-- **`Stream.Read`.** -/
def Read : GoProg (Except String (Option (String × Except String Json))) := do
  match ← perform (R := GoResp) .readNew with
  | .error err => pure (.error err)
  | .ok none => pure (.ok none)
  | .ok (some m) => message m

/-- What `runWorker` does with a message; the text of a message need not be JSON. -/
def onMessage (workerID : ℕ) (m : String × Except String Json) : WorkerProg Unit :=
  match m.2 with
  | .error err => do
    Worker.slog (.unmarshalError workerID err)
    Worker.ack m.1
  | .ok data => Worker.onMessage workerID ⟨m.1, data⟩

/-- **The default case** of the `select` of `runWorker`. -/
def runOnce (workerID : ℕ) : GoProg Unit := do
  match ← Read with
  | .error err => perform (R := GoResp) (.slog (.readError workerID err))
  | .ok none => pure ()
  | .ok (some m) => ofWorker (onMessage workerID m)

/-- The messages that the stream hands over with an answer. -/
def handed : (c : GoCall) → GoResp c → List String
  | .reclaim (.readPending _), .ok ms => ms.map Entry.id
  | .readNew, .ok (some m) => [m.id]
  | _, _ => []

/-- The messages that a call acknowledges. -/
def acksOf : GoCall → List String
  | .reclaim (.worker (.ack msgID)) => [msgID]
  | _ => []

/-! ## Goroutines -/

/-- How far `Start` has got. -/
inductive Start where
  | starting
  | reclaiming (p : GoProg Unit)
  | launching
  | scaling
  | waiting
  | returned

/-- How far `purgeLoop` has got. -/
inductive PurgeLoop where
  | absent
  | purging (p : GoProg Unit)
  | selecting
  | returned

/-- How far `monitor` has got. -/
inductive MonitorLoop where
  | absent
  | selecting
  | ticking
  | returned

/-- How far a `runWorker` has got. -/
inductive RunWorker where
  | selecting
  | working (p : GoProg Unit)
  | returned

/-- The goroutine counts in the `WaitGroup`. -/
def PurgeLoop.live : PurgeLoop → ℤ
  | .absent | .returned => 0
  | .purging _ | .selecting => 1

def MonitorLoop.live : MonitorLoop → ℤ
  | .absent | .returned => 0
  | .selecting | .ticking => 1

def RunWorker.live : RunWorker → ℤ
  | .returned => 0
  | .selecting | .working _ => 1

/-- **The process**: the store, the context, the tickers, the `WaitGroup`, the goroutines and the
pool, with the ids of the messages taken from the stream and of those acknowledged. -/
structure Process (σ : Type) where
  store : σ
  cancelled : Bool
  purgeTick : Bool
  monitorTick : Bool
  wg : ℤ
  start : Start
  purgeLoop : PurgeLoop
  monitor : MonitorLoop
  pool : WorkerPool
  runners : List (Handle × RunWorker)
  taken : List String
  acked : List String

/-- `New`, before `Start`. -/
def Process.new {σ : Type} (store : σ) (now : Time) : Process σ where
  store := store
  cancelled := false
  purgeTick := false
  monitorTick := false
  wg := 0
  start := .starting
  purgeLoop := .absent
  monitor := .absent
  pool := .new now
  runners := []
  taken := []
  acked := []

/-- **The configuration and the outside world**: what the calls may do and answer. -/
structure Deployment (σ : Type) where
  cfg : Config
  conv : IntConversion
  retentionDays : ℤ
  handler : Handler GoCall GoResp σ

/-- The pool after a scaling, with a goroutine for every worker that it started. -/
def Process.scaled {σ : Type} (s : Process σ) (p : WorkerPool) : Process σ :=
  let new := p.started.drop s.pool.started.length
  { s with
    pool := p
    runners := s.runners ++ new.map fun w => (w, .selecting)
    wg := s.wg + new.length }

/-- The process after a call. -/
def Process.called {σ : Type} (s : Process σ) (store : σ) (c : GoCall) (r : GoResp c) : Process σ :=
  { s with store := store, taken := s.taken ++ handed c r, acked := s.acked ++ acksOf c }

section Steps

variable {σ : Type} (d : Deployment σ)

/-- **A step of a goroutine.** A `select` takes a case that is ready, and its default only if none
is; a stop channel is ready once it was signalled. -/
inductive GoStep : Process σ → Process σ → Prop
  | start (s : Process σ) (h : s.start = .starting) : GoStep s { s with
      start := .reclaiming (ofReclaim reclaimPending)
      purgeLoop := if 0 < d.retentionDays then .purging (purge d.retentionDays) else .absent
      wg := s.wg + if 0 < d.retentionDays then 1 else 0 }
  | reclaimCall (s : Process σ) (c : GoCall) (k : GoResp c → GoProg Unit) (store : σ)
      (r : GoResp c) (h : s.start = .reclaiming (.call c k)) (hT : d.handler c s.store store r) :
      GoStep s { s.called store c r with start := .reclaiming (k r) }
  | reclaimed (s : Process σ) (h : s.start = .reclaiming (.ret ())) :
      GoStep s { s with start := .launching }
  | launch (s : Process σ) (h : s.start = .launching) :
      GoStep s { s with start := .scaling, monitor := .selecting, wg := s.wg + 1 }
  | scale (s : Process σ) (order : List Handle) (now : Time) (h : s.start = .scaling)
      (hp : order.Perm s.pool.workerChannels.rows) : GoStep s { s.scaled
        (scaleWorkers d.cfg order now d.cfg.initialWorkerCount s.pool) with start := .waiting }
  | wait (s : Process σ) (h : s.start = .waiting) (hwg : s.wg = 0) :
      GoStep s { s with start := .returned }
  | purgeCall (s : Process σ) (c : GoCall) (k : GoResp c → GoProg Unit) (store : σ) (r : GoResp c)
      (h : s.purgeLoop = .purging (.call c k)) (hT : d.handler c s.store store r) :
      GoStep s { s.called store c r with purgeLoop := .purging (k r) }
  | purged (s : Process σ) (h : s.purgeLoop = .purging (.ret ())) :
      GoStep s { s with purgeLoop := .selecting }
  | purgeTicked (s : Process σ) (h : s.purgeLoop = .selecting) (htick : s.purgeTick = true) :
      GoStep s { s with purgeLoop := .purging (purge d.retentionDays), purgeTick := false }
  | purgeDone (s : Process σ) (h : s.purgeLoop = .selecting) (hctx : s.cancelled = true) :
      GoStep s { s with purgeLoop := .returned, wg := s.wg - 1 }
  | monitorTicked (s : Process σ) (h : s.monitor = .selecting) (htick : s.monitorTick = true) :
      GoStep s { s with monitor := .ticking, monitorTick := false }
  | monitored (s : Process σ) (order : List Handle) (since now : Time) (probe : Except String ℤ)
      (h : s.monitor = .ticking) (hp : order.Perm s.pool.workerChannels.rows) :
      GoStep s { s.scaled (Worker.monitorTick d.cfg d.conv order since now probe s.pool) with
        monitor := .selecting }
  | monitorDone (s : Process σ) (h : s.monitor = .selecting) (hctx : s.cancelled = true) :
      GoStep s { s with monitor := .returned, wg := s.wg - 1 }
  | runnerDone (s : Process σ) (l m : List (Handle × RunWorker)) (w : Handle)
      (h : s.runners = l ++ (w, .selecting) :: m)
      (hready : s.cancelled = true ∨ w.stop ∈ s.pool.signals) :
      GoStep s { s with runners := l ++ (w, .returned) :: m, wg := s.wg - 1 }
  | runnerReads (s : Process σ) (l m : List (Handle × RunWorker)) (w : Handle)
      (h : s.runners = l ++ (w, .selecting) :: m) (hctx : s.cancelled = false)
      (hstop : w.stop ∉ s.pool.signals) :
      GoStep s { s with runners := l ++ (w, .working (runOnce w.id.toNat)) :: m }
  | runnerCall (s : Process σ) (l m : List (Handle × RunWorker)) (w : Handle) (c : GoCall)
      (k : GoResp c → GoProg Unit) (store : σ) (r : GoResp c)
      (h : s.runners = l ++ (w, .working (.call c k)) :: m) (hT : d.handler c s.store store r) :
      GoStep s { s.called store c r with runners := l ++ (w, .working (k r)) :: m }
  | runnerFinished (s : Process σ) (l m : List (Handle × RunWorker)) (w : Handle)
      (h : s.runners = l ++ (w, .working (.ret ())) :: m) :
      GoStep s { s with runners := l ++ (w, .selecting) :: m }

/-- **A step of the outside world.** -/
inductive OutsideStep {σ : Type} : Process σ → Process σ → Prop
  | cancel (s : Process σ) : OutsideStep s { s with cancelled := true }
  | purgeTick (s : Process σ) : OutsideStep s { s with purgeTick := true }
  | monitorTick (s : Process σ) : OutsideStep s { s with monitorTick := true }
  | store (s : Process σ) (store : σ) : OutsideStep s { s with store := store }

/-- The states of the process. -/
inductive Reachable : Process σ → Prop
  | new (store : σ) (now : Time) : Reachable (.new store now)
  | go {s s' : Process σ} (h : Reachable s) (hstep : GoStep d s s') : Reachable s'
  | outside {s s' : Process σ} (h : Reachable s) (hstep : OutsideStep s s') : Reachable s'

end Steps

/-! ## What is taken is acknowledged -/

section Acks

variable {msgID : String}

/-- The program acknowledges the message on every path. -/
abbrev Acks (msgID : String) (p : GoProg Unit) : Prop :=
  Does (fun c => c = .reclaim (.worker (.ack msgID))) (fun _ => False) p

/-- So does a program of a worker. -/
abbrev WorkerAcks (msgID : String) (p : WorkerProg Unit) : Prop :=
  Does (fun c => c = .ack msgID) (fun _ => False) p

/-- So does a program of `reclaimPending`, if it does not return with `Q`. -/
abbrev ReclaimAcks {α : Type} (msgID : String) (Q : α → Prop) (p : ReclaimProg α) : Prop :=
  Does (fun c => GoCall.reclaim c = .reclaim (.worker (.ack msgID))) Q p

/-- **What the program takes, it acknowledges**, whatever the answers. -/
abbrev Settles (p : GoProg Unit) : Prop :=
  Repays handed (fun msgID c => c = .reclaim (.worker (.ack msgID))) (fun _ _ => False) p

theorem reclaimAcks_asWorker {p : WorkerProg Unit} (h : WorkerAcks msgID p) :
    ReclaimAcks msgID (fun _ => False) (asWorker p) :=
  does_hoist (h.imp fun c hc => by rw [hc])

theorem acks_ofWorker {p : WorkerProg Unit} (h : WorkerAcks msgID p) : Acks msgID (ofWorker p) :=
  does_hoist (reclaimAcks_asWorker h)

theorem workerAcks_ack (msgID : String) : WorkerAcks msgID (Worker.ack msgID) := Or.inl rfl

/-- The last attempt of `process` acknowledges the message if no earlier one does. -/
theorem workerAcks_processFrom (workerID : ℕ) (msgID : String) (req : IngestRequest) {attempt : ℕ}
    {ds : List ℕ} (hds : ds ≠ []) (hlen : attempt + ds.length = delays.length) :
    WorkerAcks msgID (processFrom workerID msgID req attempt ds) := by
  induction ds generalizing attempt with
  | nil => exact absurd rfl hds
  | cons delay rest ih =>
    refine does_bind fun _ => does_bind fun r => ?_
    cases r with
    | ok _ => exact does_bind fun _ => workerAcks_ack msgID
    | error err =>
      cases rest with
      | nil =>
        -- the last attempt
        have hlast : attempt = delays.length - 1 := by
          rw [← hlen, List.length_singleton, Nat.add_sub_cancel]
        have hfail : WorkerAcks msgID (onFailure workerID msgID req attempt err) := by
          unfold onFailure
          rw [if_pos hlast]
          exact does_bind fun _ => does_bind fun _ => workerAcks_ack msgID
        exact hfail.bind fun _ h => h.elim
      | cons delay' rest =>
        refine does_bind fun _ => ih (by simp) ?_
        rw [← hlen]
        simp only [List.length_cons]
        omega

theorem workerAcks_process (workerID : ℕ) (msgID : String) (req : IngestRequest) :
    WorkerAcks msgID (process workerID msgID req) :=
  workerAcks_processFrom workerID msgID req (by decide) (by decide)

/-- **A worker acknowledges the message that it took.** -/
theorem workerAcks_onMessage (workerID : ℕ) (m : String × Except String Json) :
    WorkerAcks m.1 (onMessage workerID m) := by
  unfold onMessage
  cases m.2 with
  | error err => exact does_bind fun _ => workerAcks_ack m.1
  | ok data =>
    dsimp only
    unfold Worker.onMessage
    cases decode data with
    | error err => exact does_bind fun _ => workerAcks_ack m.1
    | ok req => exact workerAcks_process workerID m.1 req

/-- A program of a worker takes nothing. -/
theorem takesNothing_ofWorker {α : Type} (p : WorkerProg α) :
    AllCalls (fun _ _ => True) (fun c => ∀ r, handed c r = []) (ofWorker p) :=
  allCalls_hoist (allCalls_hoist (allCalls_of_forall (fun _ _ => rfl) p))

theorem settles_purge (retentionDays : ℤ) : Settles (purge retentionDays) := by
  refine repays_of_allCalls ((takesNothing_ofWorker _).bind fun r => ?_)
  cases r with
  | error err => exact allCalls_perform fun _ => rfl
  | ok deleted =>
    dsimp only
    split_ifs
    · exact allCalls_perform fun _ => rfl
    · exact allCalls_pure _

/-- **An iteration of `runWorker`** acknowledges the entry that it read. -/
theorem settles_runOnce (workerID : ℕ) : Settles (runOnce workerID) := by
  have hread : Repays handed (fun msgID c => c = .reclaim (.worker (.ack msgID)))
      (fun res msgID => ∃ m : String × Except String Json, res = .ok (some m) ∧ m.1 = msgID) Read := by
    intro r
    rcases r with err | _ | m
    · exact ⟨nofun, trivial⟩
    · exact ⟨nofun, trivial⟩
    · change (∀ msgID ∈ [m.id], Does _ _ (message m)) ∧ Repays _ _ _ (message m)
      unfold message
      cases m.payload with
      | none =>
        refine ⟨fun msgID hid => ?_,
          repays_of_allCalls ((takesNothing_ofWorker _).bind fun _ => allCalls_pure _)⟩
        obtain rfl := List.mem_singleton.mp hid
        exact (acks_ofWorker (workerAcks_ack m.id)).bind fun _ h => h.elim
      | some data =>
        refine ⟨fun msgID hid => ?_, trivial⟩
        obtain rfl := List.mem_singleton.mp hid
        exact does_pure ⟨(m.id, data), rfl, rfl⟩
  refine hread.bind (fun res => ?_) ?_
  · rcases res with err | _ | m
    · exact repays_of_allCalls (allCalls_perform fun _ => rfl)
    · trivial
    · exact repays_of_allCalls (takesNothing_ofWorker _)
  · rintro _ _ ⟨m, rfl, rfl⟩
    exact acks_ofWorker (workerAcks_onMessage workerID m)

/-- Of the entries of an answer, `ReclaimPending` acknowledges those without a payload and returns
the others. -/
theorem reclaimAcks_withPayload {ms : List Entry} (h : msgID ∈ ms.map Entry.id) :
    ReclaimAcks msgID (fun msgs => msgID ∈ msgs.map Prod.fst) (withPayload ms) := by
  induction ms with
  | nil => cases h
  | cons m ms ih =>
    rw [withPayload]
    cases hp : m.payload with
    | none =>
      rcases List.mem_cons.mp h with rfl | h
      · exact (reclaimAcks_asWorker (workerAcks_ack m.id)).bind fun _ h => h.elim
      · exact does_bind fun _ => ih h
    | some data =>
      rcases List.mem_cons.mp h with rfl | h
      · exact does_bind fun msgs => does_pure List.mem_cons_self
      · exact (ih h).bind fun msgs hmem => does_pure (List.mem_cons_of_mem _ hmem)

/-- The loop of `reclaimPending` acknowledges its messages. -/
theorem reclaimAcks_onMessages {ms : List (String × Except String Json)}
    (h : msgID ∈ ms.map Prod.fst) :
    ReclaimAcks msgID (fun _ => False) (Reclaim.onMessages ms) := by
  induction ms with
  | nil => cases h
  | cons m ms ih =>
    rcases List.mem_cons.mp h with rfl | h
    · have hm : WorkerAcks m.1 (Reclaim.onMessage m) := by
        unfold Reclaim.onMessage
        cases m.2 with
        | error err => exact workerAcks_ack m.1
        | ok data =>
          dsimp only
          cases decode data with
          | error err => exact workerAcks_ack m.1
          | ok req => exact workerAcks_process 0 m.1 req
      exact (reclaimAcks_asWorker hm).bind fun _ h => h.elim
    · exact does_bind fun _ => ih h

/-- **`reclaimPending` acknowledges every entry that the stream handed over.** -/
theorem settles_reclaimPending : Settles (ofReclaim reclaimPending) := by
  have hworker : ∀ p : WorkerProg Unit, AllCalls (fun _ _ => True)
      (fun c => ∀ r, handed (.reclaim c) r = []) (asWorker p) :=
    fun p => allCalls_hoist (allCalls_of_forall (fun _ _ => rfl) p)
  have hpayload : ∀ ms, AllCalls (fun _ _ => True)
      (fun c => ∀ r, handed (.reclaim c) r = []) (withPayload ms) := by
    intro ms
    induction ms with
    | nil => exact allCalls_pure _
    | cons m ms ih =>
      rw [withPayload]
      split
      · exact (hworker _).bind fun _ => ih
      · exact ih.bind fun _ => allCalls_pure _
  have hmessages : ∀ msgs, AllCalls (fun _ _ => True)
      (fun c => ∀ r, handed (.reclaim c) r = []) (Reclaim.onMessages msgs) := by
    intro msgs
    induction msgs with
    | nil => exact allCalls_pure _
    | cons m msgs ih => exact (hworker _).bind fun _ => ih
  have hread : Repays (fun c => handed (.reclaim c))
      (fun msgID c => GoCall.reclaim c = .reclaim (.worker (.ack msgID)))
      (fun res msgID => ∃ msgs : List (String × Except String Json), res = .ok msgs ∧
        msgID ∈ msgs.map Prod.fst) ReclaimPending := by
    intro r
    cases r with
    | error err => exact ⟨fun _ h => absurd h List.not_mem_nil, trivial⟩
    | ok ms =>
      refine ⟨fun msgID hid => ?_,
        repays_of_allCalls ((hpayload ms).bind fun msgs => allCalls_pure _)⟩
      exact (reclaimAcks_withPayload hid).bind fun msgs hmem => does_pure ⟨msgs, rfl, hmem⟩
  refine repays_hoist (hread.bind (fun res => ?_) ?_)
  · cases res with
    | error err => exact repays_of_allCalls (allCalls_perform fun _ => rfl)
    | ok msgs =>
      dsimp only
      split_ifs
      · trivial
      · exact repays_of_allCalls ((allCalls_perform fun _ => rfl).bind fun _ => hmessages msgs)
  · rintro _ msgID ⟨msgs, rfl, hmem⟩
    have hne : msgs.length ≠ 0 := by
      intro hzero
      rw [List.length_eq_zero_iff.mp hzero] at hmem
      cases hmem
    dsimp only
    rw [if_neg hne]
    exact does_bind fun _ => reclaimAcks_onMessages hmem

end Acks

/-! ## The invariant -/

section Sound

variable {σ : Type} {d : Deployment σ} {s s' : Process σ}

/-- The monitor was launched. -/
def Start.launched : Start → Bool
  | .starting | .reclaiming _ | .launching => false
  | .scaling | .waiting | .returned => true

/-- **The phases**: what was started when, and that only a cancellation ends a loop. -/
structure Phases (s : Process σ) : Prop where
  purge_absent : s.start = .starting → s.purgeLoop = .absent
  monitor_absent : s.start.launched = false → s.monitor = .absent
  monitor_present : s.start.launched = true → s.monitor ≠ .absent
  purge_returned : s.purgeLoop = .returned → s.cancelled = true
  monitor_returned : s.monitor = .returned → s.cancelled = true

theorem Phases.step (h : Phases s) (hstep : GoStep d s s') : Phases s' := by
  obtain ⟨h₁, h₂, h₃, h₄, h₅⟩ := h
  cases hstep with
  | start hs =>
    refine ⟨nofun, fun _ => h₂ (by rw [hs]; rfl), nofun, fun hret => ?_, h₅⟩
    dsimp only at hret
    split_ifs at hret
  | reclaimCall c k store r hs hT =>
    exact ⟨nofun, fun _ => h₂ (by rw [hs]; rfl), nofun, h₄, h₅⟩
  | reclaimed hs => exact ⟨nofun, fun _ => h₂ (by rw [hs]; rfl), nofun, h₄, h₅⟩
  | launch hs => exact ⟨nofun, nofun, fun _ => nofun, h₄, nofun⟩
  | scale order now hs hp => exact ⟨nofun, nofun, fun _ => h₃ (by rw [hs]; rfl), h₄, h₅⟩
  | wait hs hwg => exact ⟨nofun, nofun, fun _ => h₃ (by rw [hs]; rfl), h₄, h₅⟩
  | purgeCall c k store r hs hT =>
    exact ⟨fun hst => absurd (h₁ hst) (by rw [hs]; nofun), h₂, h₃, nofun, h₅⟩
  | purged hs => exact ⟨fun hst => absurd (h₁ hst) (by rw [hs]; nofun), h₂, h₃, nofun, h₅⟩
  | purgeTicked hs htick =>
    exact ⟨fun hst => absurd (h₁ hst) (by rw [hs]; nofun), h₂, h₃, nofun, h₅⟩
  | purgeDone hs hctx =>
    exact ⟨fun hst => absurd (h₁ hst) (by rw [hs]; nofun), h₂, h₃, fun _ => hctx, h₅⟩
  | monitorTicked hs htick =>
    exact ⟨h₁, fun hst => absurd (h₂ hst) (by rw [hs]; nofun), fun _ => nofun, h₄, nofun⟩
  | monitored order since now probe hs hp =>
    exact ⟨h₁, fun hst => absurd (h₂ hst) (by rw [hs]; nofun), fun _ => nofun, h₄, nofun⟩
  | monitorDone hs hctx =>
    exact ⟨h₁, fun hst => absurd (h₂ hst) (by rw [hs]; nofun), fun _ => nofun, h₄, fun _ => hctx⟩
  | _ => exact ⟨h₁, h₂, h₃, h₄, h₅⟩

/-- The goroutines of the workers that have not returned. -/
def liveRunners (l : List (Handle × RunWorker)) : ℤ := (l.map fun t => t.2.live).sum

/-- The goroutines that have not returned. -/
def Process.live (s : Process σ) : ℤ := s.purgeLoop.live + s.monitor.live + liveRunners s.runners

@[simp] theorem liveRunners_middle (l m : List (Handle × RunWorker)) (t : Handle × RunWorker) :
    liveRunners (l ++ t :: m) = liveRunners l + t.2.live + liveRunners m := by
  simp only [liveRunners, List.map_append, List.map_cons, List.sum_append, List.sum_cons]
  omega

theorem RunWorker.live_nonneg (r : RunWorker) : 0 ≤ r.live := by
  cases r <;> simp [live]

theorem liveRunners_nonneg (l : List (Handle × RunWorker)) : 0 ≤ liveRunners l := by
  induction l with
  | nil => exact le_refl 0
  | cons t l ih =>
    have ht := t.2.live_nonneg
    simp only [liveRunners, List.map_cons, List.sum_cons] at ih ⊢
    omega

theorem liveRunners_eq_zero {l : List (Handle × RunWorker)} (h : ∀ t ∈ l, t.2.live = 0) :
    liveRunners l = 0 := by
  induction l with
  | nil => rfl
  | cons t l ih =>
    have ht := h t List.mem_cons_self
    have hl := ih fun t ht => h t (List.mem_cons_of_mem _ ht)
    simp only [liveRunners, List.map_cons, List.sum_cons] at hl ⊢
    omega

theorem PurgeLoop.live_nonneg (p : PurgeLoop) : 0 ≤ p.live := by
  cases p <;> simp [live]

theorem MonitorLoop.live_nonneg (m : MonitorLoop) : 0 ≤ m.live := by
  cases m <;> simp [live]

/-- **The counter**: it is the number of goroutines that have not returned, every worker started has
one, and `Start` has returned only at zero. -/
structure Counted (s : Process σ) : Prop where
  wg : s.wg = s.live
  books : s.pool.Books
  runners : s.runners.map Prod.fst = s.pool.started
  returned : s.start = .returned → s.wg = 0

/-- A scaling counts the workers that it starts. -/
theorem Counted.scaled (h : Counted s) {p : WorkerPool} {goal : ℤ} (hp : ScaledTo goal s.pool p) :
    (s.scaled p).wg = s.wg + liveRunners ((s.scaled p).runners.drop s.runners.length) ∧
      liveRunners (s.scaled p).runners = liveRunners s.runners +
        liveRunners ((s.scaled p).runners.drop s.runners.length) ∧
      (s.scaled p).runners.map Prod.fst = p.started := by
  obtain ⟨new, hnew, -⟩ := hp.fresh
  have hdrop : p.started.drop s.pool.started.length = new := by rw [hnew, List.drop_left]
  have hlive : liveRunners (new.map fun w => (w, .selecting)) = new.length := by
    simp [liveRunners, Function.comp_def, RunWorker.live]
  unfold Process.scaled
  dsimp only
  rw [hdrop, List.drop_left, hlive]
  refine ⟨rfl, ?_, ?_⟩
  · rw [← hlive]
    simp [liveRunners]
  · rw [List.map_append, h.runners, List.map_map, hnew]
    exact congrArg _ (List.map_id _)

/-- A tick of the monitor keeps the books, also before the first scaling. -/
theorem monitorTick_scaledTo (hv : d.cfg.Valid) {p : WorkerPool} (h : p.Books) {order : List Handle}
    (hp : order.Perm p.workerChannels.rows) (since now : Time) (probe : Except String ℤ) :
    ∃ goal, ScaledTo goal p (Worker.monitorTick d.cfg d.conv order since now probe p) := by
  rcases monitorTick_cases d.cfg d.conv order since now probe p with he | ⟨n, -, he⟩
  · rw [he]
    exact ⟨p.activeWorkers, .refl h⟩
  · rw [he]
    unfold evaluateScaling
    split_ifs
    · exact ⟨_, scaleWorkers_scaledTo hv h hp now _⟩
    · exact ⟨_, scaleWorkers_scaledTo hv h hp now _⟩
    · exact ⟨_, .refl h⟩

theorem Counted.live_pos (h : Counted s) (hpos : 0 < s.live) : s.start ≠ .returned := by
  intro hs
  have hzero := h.returned hs
  rw [h.wg] at hzero
  omega

/-- A goroutine of a worker moves on, and the counter with it. -/
theorem Counted.runner {t : Process σ} {l m : List (Handle × RunWorker)} {w : Handle}
    {r r' : RunWorker} (h : Counted s) (hs : s.runners = l ++ (w, r) :: m)
    (ht : t.runners = l ++ (w, r') :: m) (hr : r.live = 1) (hwg : t.wg = s.wg + r'.live - 1)
    (hpool : t.pool = s.pool) (hstart : t.start = s.start) (hpurge : t.purgeLoop = s.purgeLoop)
    (hmonitor : t.monitor = s.monitor) : Counted t := by
  have hlive : s.live = s.purgeLoop.live + s.monitor.live + (liveRunners l + 1 + liveRunners m) := by
    rw [Process.live, hs, liveRunners_middle, hr]
  have hpos : s.start ≠ .returned := by
    refine h.live_pos ?_
    have h₁ := s.purgeLoop.live_nonneg
    have h₂ := s.monitor.live_nonneg
    have h₃ := liveRunners_nonneg l
    have h₄ := liveRunners_nonneg m
    omega
  refine ⟨?_, hpool ▸ h.books, ?_, fun hret => absurd (hstart ▸ hret) hpos⟩
  · rw [hwg, h.wg, hlive, Process.live, ht, hpurge, hmonitor, liveRunners_middle]
    dsimp only
    omega
  · have hrunners := h.runners
    rw [hs] at hrunners
    rw [ht, hpool, ← hrunners]
    simp

theorem Counted.step (hv : d.cfg.Valid) (hph : Phases s) (h : Counted s) (hstep : GoStep d s s') :
    Counted s' := by
  have hpurge := s.purgeLoop.live_nonneg
  have hmonitor := s.monitor.live_nonneg
  have hrunners := liveRunners_nonneg s.runners
  have hwg := h.wg
  rw [Process.live] at hwg
  cases hstep with
  | start hs =>
    refine ⟨?_, h.books, h.runners, nofun⟩
    rw [hph.purge_absent hs] at hwg
    simp only [Process.live]
    split_ifs <;> simp only [PurgeLoop.live] at hwg ⊢ <;> omega
  | reclaimCall c k store r hs hT => exact ⟨h.wg, h.books, h.runners, nofun⟩
  | reclaimed hs => exact ⟨h.wg, h.books, h.runners, nofun⟩
  | launch hs =>
    refine ⟨?_, h.books, h.runners, nofun⟩
    rw [hph.monitor_absent (by rw [hs]; rfl)] at hwg
    simp only [Process.live, MonitorLoop.live] at hwg ⊢
    omega
  | scale order now hs hp =>
    have hscaled := scaleWorkers_scaledTo hv h.books hp now d.cfg.initialWorkerCount
    obtain ⟨h₁, h₂, h₃⟩ := h.scaled hscaled
    refine ⟨?_, hscaled.books, h₃, nofun⟩
    change (s.scaled _).wg = s.purgeLoop.live + s.monitor.live + liveRunners (s.scaled _).runners
    rw [h₁, h₂]
    omega
  | wait hs hzero => exact ⟨h.wg, h.books, h.runners, fun _ => hzero⟩
  | purgeCall c k store r hs hT =>
    refine ⟨?_, h.books, h.runners, h.returned⟩
    rw [hs] at hwg
    exact hwg
  | purged hs =>
    refine ⟨?_, h.books, h.runners, h.returned⟩
    rw [hs] at hwg
    exact hwg
  | purgeTicked hs htick =>
    refine ⟨?_, h.books, h.runners, h.returned⟩
    rw [hs] at hwg
    exact hwg
  | purgeDone hs hctx =>
    rw [hs] at hwg
    refine ⟨?_, h.books, h.runners, fun hret => absurd hret (h.live_pos ?_)⟩
    · simp only [Process.live, PurgeLoop.live] at hwg ⊢
      omega
    · simp only [Process.live, hs, PurgeLoop.live] at hwg ⊢
      omega
  | monitorTicked hs htick =>
    refine ⟨?_, h.books, h.runners, h.returned⟩
    rw [hs] at hwg
    exact hwg
  | monitored order since now probe hs hp =>
    obtain ⟨goal, hscaled⟩ := monitorTick_scaledTo hv h.books hp since now probe
    obtain ⟨h₁, h₂, h₃⟩ := h.scaled hscaled
    rw [hs] at hwg
    refine ⟨?_, hscaled.books, h₃, fun hret => absurd hret (h.live_pos ?_)⟩
    · change (s.scaled _).wg = s.purgeLoop.live + 1 + liveRunners (s.scaled _).runners
      rw [h₁, h₂]
      simp only [MonitorLoop.live] at hwg
      omega
    · simp only [Process.live, hs, MonitorLoop.live] at hwg ⊢
      omega
  | monitorDone hs hctx =>
    rw [hs] at hwg
    refine ⟨?_, h.books, h.runners, fun hret => absurd hret (h.live_pos ?_)⟩
    · simp only [Process.live, MonitorLoop.live] at hwg ⊢
      omega
    · simp only [Process.live, hs, MonitorLoop.live] at hwg ⊢
      omega
  | runnerDone l m w hs hready =>
    exact h.runner hs rfl rfl (by simp [RunWorker.live]) rfl rfl rfl rfl
  | runnerReads l m w hs hctx hstop =>
    exact h.runner hs rfl rfl (by simp [RunWorker.live]) rfl rfl rfl rfl
  | runnerCall l m w c k store r hs hT =>
    exact h.runner hs rfl rfl (by simp [RunWorker.live, Process.called]) rfl rfl rfl rfl
  | runnerFinished l m w hs =>
    exact h.runner hs rfl rfl (by simp [RunWorker.live]) rfl rfl rfl rfl

/-- **Every goroutine has returned** if the counter is zero. -/
theorem Counted.all_returned (h : Counted s) (hs : s.wg = 0) :
    s.purgeLoop.live = 0 ∧ s.monitor.live = 0 ∧ ∀ t ∈ s.runners, t.2 = .returned := by
  have hpurge := s.purgeLoop.live_nonneg
  have hmonitor := s.monitor.live_nonneg
  have hrunners := liveRunners_nonneg s.runners
  have hlive : s.purgeLoop.live + s.monitor.live + liveRunners s.runners = 0 :=
    h.wg.symm.trans hs
  refine ⟨by omega, by omega, fun t ht => ?_⟩
  obtain ⟨l, m, hlm⟩ := List.append_of_mem ht
  have hl := liveRunners_nonneg l
  have hm := liveRunners_nonneg m
  rw [hlm, liveRunners_middle] at hlive hrunners
  have hzero := t.2.live_nonneg
  cases hr : t.2 with
  | returned => rfl
  | _ =>
    rw [hr] at hlive
    simp only [RunWorker.live] at hlive
    omega

/-- A goroutine is in the program. -/
def Running (s : Process σ) (p : GoProg Unit) : Prop :=
  s.start = .reclaiming p ∨ s.purgeLoop = .purging p ∨ ∃ w, (w, .working p) ∈ s.runners

/-- **The debts**: every message taken is acknowledged, or a goroutine will do so on every path. -/
structure Paying (s : Process σ) : Prop where
  owed : ∀ msgID ∈ s.taken, msgID ∈ s.acked ∨ ∃ p, Running s p ∧ Acks msgID p
  settles : ∀ p, Running s p → Settles p

/-- A step without a call: a program ended, or a new one began. -/
theorem Paying.frame {t : Process σ} (h : Paying s) (htaken : t.taken = s.taken)
    (hacked : t.acked = s.acked) (hold : ∀ p, Running s p → p = .ret () ∨ Running t p)
    (hnew : ∀ p, Running t p → Settles p ∨ Running s p) : Paying t := by
  refine ⟨fun msgID hid => ?_, fun p hp => (hnew p hp).elim id (h.settles p)⟩
  rw [htaken] at hid
  rcases h.owed msgID hid with hmem | ⟨p, hp, hacks⟩
  · exact Or.inl (hacked ▸ hmem)
  · rcases hold p hp with rfl | hp
    · exact hacks.elim
    · exact Or.inr ⟨p, hp, hacks⟩

/-- A call: what the answer hands over, the rest of the program acknowledges. -/
theorem Paying.call {t : Process σ} {c : GoCall} {k : GoResp c → GoProg Unit} {r : GoResp c}
    (h : Paying s) (hs : Running s (.call c k)) (ht : Running t (k r))
    (htaken : t.taken = s.taken ++ handed c r) (hacked : t.acked = s.acked ++ acksOf c)
    (hold : ∀ p, Running s p → p = .call c k ∨ Running t p)
    (hnew : ∀ p, Running t p → p = k r ∨ Running s p) : Paying t := by
  have hcall := h.settles _ hs r
  refine ⟨fun msgID hid => ?_, fun p hp => ?_⟩
  · rw [htaken, List.mem_append] at hid
    rw [hacked]
    rcases hid with hid | hid
    · rcases h.owed msgID hid with hmem | ⟨p, hp, hacks⟩
      · exact Or.inl (List.mem_append_left _ hmem)
      · rcases hold p hp with rfl | hp
        · rcases hacks with rfl | hacks
          · exact Or.inl (List.mem_append_right _ List.mem_cons_self)
          · exact Or.inr ⟨k r, ht, hacks r⟩
        · exact Or.inr ⟨p, hp, hacks⟩
    · exact Or.inr ⟨k r, ht, hcall.1 msgID hid⟩
  · rcases hnew p hp with rfl | hp
    · exact hcall.2
    · exact h.settles p hp

section Running

variable {t : Process σ} {p : GoProg Unit} {X : Prop}

/-- If only `Start` moves, the others go on. -/
theorem Running.start (hp : Running s p) (h : s.start = .reclaiming p → X)
    (hpurge : t.purgeLoop = s.purgeLoop)
    (hrunners : ∀ w, (w, .working p) ∈ s.runners → (w, .working p) ∈ t.runners) :
    X ∨ Running t p := by
  rcases hp with hp | hp | ⟨w, hmem⟩
  · exact Or.inl (h hp)
  · exact Or.inr (Or.inr (Or.inl (hpurge.trans hp)))
  · exact Or.inr (Or.inr (Or.inr ⟨w, hrunners w hmem⟩))

/-- If only `purgeLoop` moves, the others go on. -/
theorem Running.purge (hp : Running s p) (h : s.purgeLoop = .purging p → X)
    (hstart : t.start = s.start) (hrunners : t.runners = s.runners) : X ∨ Running t p := by
  rcases hp with hp | hp | ⟨w, hmem⟩
  · exact Or.inr (Or.inl (hstart.trans hp))
  · exact Or.inl (h hp)
  · exact Or.inr (Or.inr (Or.inr ⟨w, hrunners ▸ hmem⟩))

/-- If only one worker moves, the others go on. -/
theorem Running.runner {l m : List (Handle × RunWorker)} {w : Handle} {r r' : RunWorker}
    (hp : Running s p) (hs : s.runners = l ++ (w, r) :: m) (h : r = .working p → X)
    (ht : t.runners = l ++ (w, r') :: m) (hstart : t.start = s.start)
    (hpurge : t.purgeLoop = s.purgeLoop) : X ∨ Running t p := by
  rcases hp with hp | hp | ⟨w', hmem⟩
  · exact Or.inr (Or.inl (hstart.trans hp))
  · exact Or.inr (Or.inr (Or.inl (hpurge.trans hp)))
  · rw [hs, List.mem_append, List.mem_cons] at hmem
    rcases hmem with hmem | hmem | hmem
    · exact Or.inr (Or.inr (Or.inr ⟨w', ht ▸ List.mem_append_left _ hmem⟩))
    · exact Or.inl (h (Prod.mk.inj hmem).2.symm)
    · refine Or.inr (Or.inr (Or.inr ⟨w', ?_⟩))
      rw [ht]
      exact List.mem_append_right _ (List.mem_cons_of_mem _ hmem)

/-- The workers that a scaling starts are in no program. -/
theorem mem_scaled {pool : WorkerPool} {w : Handle} :
    (w, .working p) ∈ (s.scaled pool).runners ↔ (w, .working p) ∈ s.runners := by
  have hnew : ∀ ws : List Handle, (w, .working p) ∉ ws.map fun w => (w, RunWorker.selecting) := by
    simp
  exact List.mem_append.trans (or_iff_left (hnew _))

end Running

theorem Paying.step (hph : Phases s) (h : Paying s) (hstep : GoStep d s s') : Paying s' := by
  cases hstep with
  | start hs =>
    have hpurge := hph.purge_absent hs
    refine h.frame rfl rfl (fun p hp => ?_) fun p hp => ?_
    · rcases hp with hp | hp | hp
      · exact absurd (hs.symm.trans hp) nofun
      · exact absurd (hpurge.symm.trans hp) nofun
      · exact Or.inr (Or.inr (Or.inr hp))
    · rcases hp with hp | hp | hp
      · cases hp
        exact Or.inl settles_reclaimPending
      · dsimp only at hp
        split_ifs at hp
        · cases hp
          exact Or.inl (settles_purge _)
      · exact Or.inr (Or.inr (Or.inr hp))
  | reclaimCall c k store r hs hT =>
    refine h.call (Or.inl hs) (Or.inl rfl) rfl rfl (fun p hp => ?_) fun p hp => ?_
    · exact hp.start (fun hp => (Start.reclaiming.inj (hs.symm.trans hp)).symm) rfl fun w hw => hw
    · exact hp.start (fun hp => (Start.reclaiming.inj hp).symm) rfl fun w hw => hw
  | reclaimed hs =>
    refine h.frame rfl rfl (fun p hp => ?_) fun p hp => ?_
    · exact hp.start (fun hp => (Start.reclaiming.inj (hs.symm.trans hp)).symm) rfl fun w hw => hw
    · exact hp.start nofun rfl fun w hw => hw
  | launch hs =>
    refine h.frame rfl rfl (fun p hp => ?_) fun p hp => ?_
    · exact hp.start (fun hp => absurd (hs.symm.trans hp) nofun) rfl fun w hw => hw
    · exact hp.start nofun rfl fun w hw => hw
  | scale order now hs hp =>
    refine h.frame rfl rfl (fun p hp => ?_) fun p hp => ?_
    · exact hp.start (fun hp => absurd (hs.symm.trans hp) nofun) rfl fun w => mem_scaled.mpr
    · exact hp.start nofun rfl fun w => mem_scaled.mp
  | wait hs hwg =>
    refine h.frame rfl rfl (fun p hp => ?_) fun p hp => ?_
    · exact hp.start (fun hp => absurd (hs.symm.trans hp) nofun) rfl fun w hw => hw
    · exact hp.start nofun rfl fun w hw => hw
  | purgeCall c k store r hs hT =>
    refine h.call (Or.inr (Or.inl hs)) (Or.inr (Or.inl rfl)) rfl rfl (fun p hp => ?_) fun p hp => ?_
    · exact hp.purge (fun hp => (PurgeLoop.purging.inj (hs.symm.trans hp)).symm) rfl rfl
    · exact hp.purge (fun hp => (PurgeLoop.purging.inj hp).symm) rfl rfl
  | purged hs =>
    refine h.frame rfl rfl (fun p hp => ?_) fun p hp => ?_
    · exact hp.purge (fun hp => (PurgeLoop.purging.inj (hs.symm.trans hp)).symm) rfl rfl
    · exact hp.purge nofun rfl rfl
  | purgeTicked hs htick =>
    refine h.frame rfl rfl (fun p hp => ?_) fun p hp => ?_
    · exact hp.purge (fun hp => absurd (hs.symm.trans hp) nofun) rfl rfl
    · exact hp.purge (fun hp => PurgeLoop.purging.inj hp ▸ settles_purge _) rfl rfl
  | purgeDone hs hctx =>
    refine h.frame rfl rfl (fun p hp => ?_) fun p hp => ?_
    · exact hp.purge (fun hp => absurd (hs.symm.trans hp) nofun) rfl rfl
    · exact hp.purge nofun rfl rfl
  | monitored order since now probe hs hp =>
    refine h.frame rfl rfl (fun p hp => Or.inr ?_) fun p hp => Or.inr ?_
    · exact hp.imp_right fun hp => hp.imp_right fun ⟨w, hw⟩ => ⟨w, mem_scaled.mpr hw⟩
    · exact hp.imp_right fun hp => hp.imp_right fun ⟨w, hw⟩ => ⟨w, mem_scaled.mp hw⟩
  | monitorTicked hs htick => exact h.frame rfl rfl (fun p => Or.inr) fun p => Or.inr
  | monitorDone hs hctx => exact h.frame rfl rfl (fun p => Or.inr) fun p => Or.inr
  | runnerDone l m w hs hready =>
    refine h.frame rfl rfl (fun p hp => ?_) fun p hp => ?_
    · exact hp.runner hs nofun rfl rfl rfl
    · exact hp.runner rfl nofun hs rfl rfl
  | runnerReads l m w hs hctx hstop =>
    refine h.frame rfl rfl (fun p hp => ?_) fun p hp => ?_
    · exact hp.runner hs nofun rfl rfl rfl
    · exact hp.runner rfl (fun hp => RunWorker.working.inj hp ▸ settles_runOnce _) hs rfl rfl
  | runnerCall l m w c k store r hs hT =>
    have hmem : (w, .working (.call c k)) ∈ s.runners := by
      rw [hs]
      exact List.mem_append_right _ List.mem_cons_self
    refine h.call (Or.inr (Or.inr ⟨w, hmem⟩))
      (Or.inr (Or.inr ⟨w, List.mem_append_right _ List.mem_cons_self⟩)) rfl rfl (fun p hp => ?_)
      fun p hp => ?_
    · exact hp.runner hs (fun hp => (RunWorker.working.inj hp).symm) rfl rfl rfl
    · exact hp.runner rfl (fun hp => (RunWorker.working.inj hp).symm) hs rfl rfl
  | runnerFinished l m w hs =>
    refine h.frame rfl rfl (fun p hp => ?_) fun p hp => ?_
    · exact hp.runner hs (fun hp => (RunWorker.working.inj hp).symm) rfl rfl rfl
    · exact hp.runner rfl nofun hs rfl rfl

/-- **What holds of every state** of the process. -/
structure Sound (s : Process σ) : Prop where
  phases : Phases s
  counted : Counted s
  paying : Paying s

theorem Sound.outside (h : Sound s) (hstep : OutsideStep s s') : Sound s' := by
  obtain ⟨⟨h₁, h₂, h₃, h₄, h₅⟩, ⟨h₆, h₇, h₈, h₉⟩, ⟨h₁₀, h₁₁⟩⟩ := h
  cases hstep with
  | cancel =>
    exact ⟨⟨h₁, h₂, h₃, fun _ => rfl, fun _ => rfl⟩, ⟨h₆, h₇, h₈, h₉⟩, ⟨h₁₀, h₁₁⟩⟩
  | _ => exact ⟨⟨h₁, h₂, h₃, h₄, h₅⟩, ⟨h₆, h₇, h₈, h₉⟩, ⟨h₁₀, h₁₁⟩⟩

theorem Reachable.sound (hv : d.cfg.Valid) (h : Reachable d s) : Sound s := by
  induction h with
  | new store now =>
    refine ⟨⟨fun _ => rfl, fun _ => rfl, nofun, nofun, nofun⟩, ⟨rfl, books_new now, rfl, nofun⟩,
      ⟨nofun, ?_⟩⟩
    rintro p (hp | hp | ⟨w, hmem⟩)
    · cases hp
    · cases hp
    · cases hmem
  | go _ hstep ih =>
    exact ⟨ih.phases.step hstep, ih.counted.step hv ih.phases hstep, ih.paying.step ih.phases hstep⟩
  | outside _ hstep ih => exact ih.outside hstep

/-- **At the end** everything taken is acknowledged. -/
theorem Sound.acked (h : Sound s) (hs : s.start = .returned) : ∀ msgID ∈ s.taken, msgID ∈ s.acked := by
  intro msgID hid
  obtain ⟨hpurge, -, hrunners⟩ := h.counted.all_returned (h.counted.returned hs)
  rcases h.paying.owed msgID hid with hacked | ⟨p, hp | hp | ⟨w, hmem⟩, -⟩
  · exact hacked
  · exact absurd (hs.symm.trans hp) nofun
  · rw [hp] at hpurge
    simp [PurgeLoop.live] at hpurge
  · cases hrunners _ hmem

/-- The loops ended only after a cancellation. -/
theorem Sound.cancelled (h : Sound s) (hs : s.start = .returned) : s.cancelled = true := by
  have hmonitor := (h.counted.all_returned (h.counted.returned hs)).2.1
  have hpresent := h.phases.monitor_present (by rw [hs]; rfl)
  cases hm : s.monitor with
  | returned => exact h.phases.monitor_returned hm
  | absent => exact absurd hm hpresent
  | _ =>
    rw [hm] at hmonitor
    simp [MonitorLoop.live] at hmonitor

end Sound

/-! ## After the cancellation -/

section Shutdown

variable {σ : Type} {d : Deployment σ} {s t : Process σ}

/-- How `Start` goes on. -/
inductive Start.Less : Start → Start → Prop
  | start (p : GoProg Unit) : Less (.reclaiming p) .starting
  | call {p p' : GoProg Unit} (h : Next p' p) : Less (.reclaiming p') (.reclaiming p)
  | reclaimed : Less .launching (.reclaiming (.ret ()))
  | launch : Less .scaling .launching
  | scale : Less .waiting .scaling
  | wait : Less .returned .waiting

/-- How `purgeLoop` goes on, with its ticker. -/
inductive PurgeLess : Bool × PurgeLoop → Bool × PurgeLoop → Prop
  | call (b : Bool) {p p' : GoProg Unit} (h : Next p' p) :
      PurgeLess (b, .purging p') (b, .purging p)
  | purged (b : Bool) : PurgeLess (b, .selecting) (b, .purging (.ret ()))
  | ticked (p : GoProg Unit) : PurgeLess (false, .purging p) (true, .selecting)
  | done (b : Bool) : PurgeLess (b, .returned) (b, .selecting)

/-- How `monitor` goes on, with its ticker. -/
inductive MonitorLess : Bool × MonitorLoop → Bool × MonitorLoop → Prop
  | ticked : MonitorLess (false, .ticking) (true, .selecting)
  | monitored (b : Bool) : MonitorLess (b, .selecting) (b, .ticking)
  | done (b : Bool) : MonitorLess (b, .returned) (b, .selecting)

/-- How a worker goes on after the cancellation. -/
inductive RunLess : Handle × RunWorker → Handle × RunWorker → Prop
  | done (w : Handle) : RunLess (w, .returned) (w, .selecting)
  | call (w : Handle) {p p' : GoProg Unit} (h : Next p' p) :
      RunLess (w, .working p') (w, .working p)
  | finished (w : Handle) : RunLess (w, .selecting) (w, .working (.ret ()))

theorem wf_startLess : WellFounded Start.Less := by
  have hreturned : Acc Start.Less .returned := ⟨_, nofun⟩
  have hwaiting : Acc Start.Less .waiting := ⟨_, fun _ h => by cases h; exact hreturned⟩
  have hscaling : Acc Start.Less .scaling := ⟨_, fun _ h => by cases h; exact hwaiting⟩
  have hlaunching : Acc Start.Less .launching := ⟨_, fun _ h => by cases h; exact hscaling⟩
  have hreclaiming : ∀ p, Acc Start.Less (.reclaiming p) := by
    intro p
    induction p using wf_next.induction with
    | _ p ih =>
      refine ⟨_, fun _ h => ?_⟩
      cases h with
      | call h => exact ih _ h
      | reclaimed => exact hlaunching
  refine ⟨fun a => ?_⟩
  cases a with
  | starting => exact ⟨_, fun _ h => by cases h; exact hreclaiming _⟩
  | reclaiming p => exact hreclaiming p
  | launching => exact hlaunching
  | scaling => exact hscaling
  | waiting => exact hwaiting
  | returned => exact hreturned

theorem wf_purgeLess : WellFounded PurgeLess := by
  have hreturned : ∀ b, Acc PurgeLess (b, .returned) := fun b => ⟨_, nofun⟩
  have hpurging : ∀ b, Acc PurgeLess (b, .selecting) → ∀ p, Acc PurgeLess (b, .purging p) := by
    intro b hselecting p
    induction p using wf_next.induction with
    | _ p ih =>
      refine ⟨_, fun _ h => ?_⟩
      cases h with
      | call _ h => exact ih _ h
      | purged _ => exact hselecting
  have hquiet : Acc PurgeLess (false, .selecting) :=
    ⟨_, fun _ h => by cases h; exact hreturned false⟩
  have hselecting : ∀ b, Acc PurgeLess (b, .selecting) := by
    intro b
    cases b with
    | false => exact hquiet
    | true =>
      refine ⟨_, fun _ h => ?_⟩
      cases h with
      | ticked p => exact hpurging false hquiet p
      | done _ => exact hreturned true
  refine ⟨fun ⟨b, a⟩ => ?_⟩
  cases a with
  | absent => exact ⟨_, nofun⟩
  | purging p => exact hpurging b (hselecting b) p
  | selecting => exact hselecting b
  | returned => exact hreturned b

theorem wf_monitorLess : WellFounded MonitorLess := by
  have hreturned : ∀ b, Acc MonitorLess (b, .returned) := fun b => ⟨_, nofun⟩
  have hquiet : Acc MonitorLess (false, .selecting) :=
    ⟨_, fun _ h => by cases h; exact hreturned false⟩
  have hticking : ∀ b, Acc MonitorLess (b, .selecting) → Acc MonitorLess (b, .ticking) :=
    fun b h => ⟨_, fun _ h' => by cases h'; exact h⟩
  have hselecting : ∀ b, Acc MonitorLess (b, .selecting) := by
    intro b
    cases b with
    | false => exact hquiet
    | true =>
      refine ⟨_, fun _ h => ?_⟩
      cases h with
      | ticked => exact hticking false hquiet
      | done _ => exact hreturned true
  refine ⟨fun ⟨b, a⟩ => ?_⟩
  cases a with
  | absent => exact ⟨_, nofun⟩
  | selecting => exact hselecting b
  | ticking => exact hticking b (hselecting b)
  | returned => exact hreturned b

theorem wf_runLess : WellFounded RunLess := by
  have hreturned : ∀ w, Acc RunLess (w, .returned) := fun w => ⟨_, nofun⟩
  have hselecting : ∀ w, Acc RunLess (w, .selecting) :=
    fun w => ⟨_, fun _ h => by cases h; exact hreturned w⟩
  have hworking : ∀ w p, Acc RunLess (w, .working p) := by
    intro w p
    induction p using wf_next.induction with
    | _ p ih =>
      refine ⟨_, fun _ h => ?_⟩
      cases h with
      | call _ h => exact ih _ h
      | finished _ => exact hselecting w
  refine ⟨fun ⟨w, a⟩ => ?_⟩
  cases a with
  | returned => exact hreturned w
  | selecting => exact hselecting w
  | working p => exact hworking w p

/-- Where the goroutines are; a tick of the monitor may start workers, so their order comes last. -/
def Process.rank (s : Process σ) :
    Start × ((Bool × PurgeLoop) × (Bool × MonitorLoop)) × List (Handle × RunWorker) :=
  (s.start, ((s.purgeTick, s.purgeLoop), (s.monitorTick, s.monitor)), s.runners)

/-- **The order in which a cancelled process goes down.** -/
abbrev Process.Below (t s : Process σ) : Prop :=
  Prod.Lex Start.Less (Prod.Lex (Prod.GameAdd PurgeLess MonitorLess) (OneStep RunLess)) t.rank s.rank

theorem wf_below : WellFounded (Process.Below (σ := σ)) :=
  InvImage.wf Process.rank (wf_startLess.prod_lex
    ((wf_purgeLess.prod_gameAdd wf_monitorLess).prod_lex (wf_oneStep wf_runLess)))

theorem GoStep.cancelled (h : GoStep d s t) : t.cancelled = s.cancelled := by
  cases h <;> rfl

theorem below_start (h : Start.Less t.start s.start) : t.Below s := Prod.lex_def.mpr (Or.inl h)

theorem below_purge (hstart : t.start = s.start) (htick : t.monitorTick = s.monitorTick)
    (hmonitor : t.monitor = s.monitor)
    (h : PurgeLess (t.purgeTick, t.purgeLoop) (s.purgeTick, s.purgeLoop)) : t.Below s := by
  refine Prod.lex_def.mpr (Or.inr ⟨hstart, Prod.lex_def.mpr (Or.inl ?_)⟩)
  exact Prod.gameAdd_iff.mpr (Or.inl ⟨h, Prod.ext htick hmonitor⟩)

theorem below_monitor (hstart : t.start = s.start) (htick : t.purgeTick = s.purgeTick)
    (hpurge : t.purgeLoop = s.purgeLoop)
    (h : MonitorLess (t.monitorTick, t.monitor) (s.monitorTick, s.monitor)) : t.Below s := by
  refine Prod.lex_def.mpr (Or.inr ⟨hstart, Prod.lex_def.mpr (Or.inl ?_)⟩)
  exact Prod.gameAdd_iff.mpr (Or.inr ⟨h, Prod.ext htick hpurge⟩)

theorem below_runner {l m : List (Handle × RunWorker)} {x x' : Handle × RunWorker}
    (hs : s.runners = l ++ x :: m) (ht : t.runners = l ++ x' :: m) (h : RunLess x' x)
    (hstart : t.start = s.start) (hpurge : (t.purgeTick, t.purgeLoop) = (s.purgeTick, s.purgeLoop))
    (hmonitor : (t.monitorTick, t.monitor) = (s.monitorTick, s.monitor)) : t.Below s := by
  refine Prod.lex_def.mpr (Or.inr ⟨hstart, Prod.lex_def.mpr (Or.inr ⟨?_, ?_⟩)⟩)
  · exact Prod.ext hpurge hmonitor
  · change OneStep RunLess t.runners s.runners
    rw [hs, ht]
    exact .mk l m x x' h

/-- **A cancelled process goes down** with every step: no worker begins to read. -/
theorem descends (h : GoStep d s t) (hctx : s.cancelled = true) : t.Below s := by
  cases h with
  | start hs => exact below_start (hs ▸ .start _)
  | reclaimCall c k store r hs hT => exact below_start (hs ▸ .call (.call c k r))
  | reclaimed hs => exact below_start (hs ▸ .reclaimed)
  | launch hs => exact below_start (hs ▸ .launch)
  | scale order now hs hp => exact below_start (hs ▸ .scale)
  | wait hs hwg => exact below_start (hs ▸ .wait)
  | purgeCall c k store r hs hT => exact below_purge rfl rfl rfl (hs ▸ .call _ (.call c k r))
  | purged hs => exact below_purge rfl rfl rfl (hs ▸ .purged _)
  | purgeTicked hs htick => exact below_purge rfl rfl rfl (by rw [hs, htick]; exact .ticked _)
  | purgeDone hs hdone => exact below_purge rfl rfl rfl (hs ▸ .done _)
  | monitorTicked hs htick => exact below_monitor rfl rfl rfl (by rw [hs, htick]; exact .ticked)
  | monitored order since now probe hs hp => exact below_monitor rfl rfl rfl (hs ▸ .monitored _)
  | monitorDone hs hdone => exact below_monitor rfl rfl rfl (hs ▸ .done _)
  | runnerDone l m w hs hready => exact below_runner hs rfl (.done w) rfl rfl rfl
  | runnerReads l m w hs hctx' hstop => exact absurd (hctx'.symm.trans hctx) nofun
  | runnerCall l m w c k store r hs hT =>
    exact below_runner hs rfl (.call w (.call c k r)) rfl rfl rfl
  | runnerFinished l m w hs => exact below_runner hs rfl (.finished w) rfl rfl rfl

/-- One step of the process after the store changed in any way. -/
def Turn (d : Deployment σ) (s t : Process σ) : Prop := ∃ store, GoStep d { s with store := store } t

/-- **The end is near**: a cancelled process makes finitely many steps between two ticks. -/
theorem acc_turn (hctx : s.cancelled = true) : Acc (fun t s => Turn d s t) s := by
  induction s using wf_below.induction with
  | _ s ih =>
    refine ⟨_, fun t h => ?_⟩
    obtain ⟨store, hstep⟩ := h
    have hbelow := descends hstep hctx
    exact ih t hbelow (hstep.cancelled.trans hctx)

/-- Every call is answered in some way. -/
def Responsive (d : Deployment σ) : Prop := ∀ c store, ∃ store' r, d.handler c store store' r

/-- **No deadlock**: a cancelled process that cannot go on is at its end. -/
theorem returned_of_stuck (hd : Responsive d) (h : Counted s) (hctx : s.cancelled = true)
    (hstuck : ∀ t, ¬ GoStep d s t) : s.start = .returned := by
  have hpurge : s.purgeLoop.live = 0 := by
    cases hp : s.purgeLoop with
    | absent => rfl
    | returned => rfl
    | selecting => exact absurd (.purgeDone s hp hctx) (hstuck _)
    | purging p =>
      cases p with
      | ret r => exact absurd (.purged s hp) (hstuck _)
      | call c k =>
        obtain ⟨store, r, hT⟩ := hd c s.store
        exact absurd (.purgeCall s c k store r hp hT) (hstuck _)
  have hmonitor : s.monitor.live = 0 := by
    cases hm : s.monitor with
    | absent => rfl
    | returned => rfl
    | selecting => exact absurd (.monitorDone s hm hctx) (hstuck _)
    | ticking =>
      exact absurd (.monitored s s.pool.workerChannels.rows 0 0 (.ok 0) hm (.refl _)) (hstuck _)
  have hrunners : ∀ t ∈ s.runners, t.2.live = 0 := by
    intro t ht
    obtain ⟨l, m, hlm⟩ := List.append_of_mem ht
    obtain ⟨w, r⟩ := t
    cases r with
    | returned => rfl
    | selecting => exact absurd (.runnerDone s l m w hlm (Or.inl hctx)) (hstuck _)
    | working p =>
      cases p with
      | ret a => exact absurd (.runnerFinished s l m w hlm) (hstuck _)
      | call c k =>
        obtain ⟨store, r, hT⟩ := hd c s.store
        exact absurd (.runnerCall s l m w c k store r hlm hT) (hstuck _)
  have hwg : s.wg = 0 := by
    rw [h.wg, Process.live, hpurge, hmonitor, liveRunners_eq_zero hrunners]
    rfl
  cases hst : s.start with
  | returned => rfl
  | starting => exact absurd (.start s hst) (hstuck _)
  | launching => exact absurd (.launch s hst) (hstuck _)
  | scaling =>
    exact absurd (.scale s s.pool.workerChannels.rows 0 hst (.refl _)) (hstuck _)
  | waiting => exact absurd (.wait s hst hwg) (hstuck _)
  | reclaiming p =>
    cases p with
    | ret a => exact absurd (.reclaimed s hst) (hstuck _)
    | call c k =>
      obtain ⟨store, r, hT⟩ := hd c s.store
      exact absurd (.reclaimCall s c k store r hst hT) (hstuck _)

/-- One worker, no purge, and a stream that hands over its entries once. -/
def lonely : Deployment (List Entry) where
  cfg := { defaultConfig with initialWorkerCount := 1, minWorkerCount := 1 }
  conv := amd64
  retentionDays := 0
  handler
    | .readNew, entries, entries', r => r = .ok entries.head? ∧ entries' = entries.tail
    | _, entries, entries', _ => entries' = entries

/-- The pool of one worker. -/
theorem scaleWorkers_lonely : (scaleWorkers lonely.cfg [] 0 1 (.new 0)).started = [⟨0, 0⟩] ∧
    (scaleWorkers lonely.cfg [] 0 1 (.new 0)).signals = [] := by
  have hfirst : (WorkerPool.new 0).startWorkers 1 0 = (WorkerPool.new 0).startWorker 0 := by
    rw [startWorkers, if_pos (by decide), startWorkers, if_neg (by decide)]
  have hscale : scaleWorkers lonely.cfg [] 0 1 (.new 0) = scaleUp [] 0 1 (.new 0) := by
    unfold scaleWorkers
    rw [if_neg (by decide), if_pos (by decide)]
    rfl
  have hid : nextID [] = 0 := rfl
  rw [hscale, scaleUp, hid, hfirst]
  exact ⟨rfl, rfl⟩

end Shutdown

end Lifecycle

end BatRewind
