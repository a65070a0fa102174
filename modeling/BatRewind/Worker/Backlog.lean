import Mathlib.Data.Fintype.EquivFin
import BatRewind.Queue.Stream
import BatRewind.Worker.Scaling

/-!
# The autoscaler and the backlog

The monitor of `internal/worker/service.go` scales by `PendingCount`, the number of delivered and
unacknowledged entries of the stream. A worker has at most one message in hand, so entries that are
not delivered yet never show in that number.

* `Fleet`: the stream, the pool and what each worker has in hand; `FleetStep`: the writer adds
  entries, workers read, finish and quit, the monitor ticks.
* **`tick_scales_iff`**: a tick answers to the backlog exactly if the pending entries alone exceed
  the threshold.
* **`never_scales_up`**: with no more initial workers than `ScaleUpThreshold`, the pool never grows.
-/

namespace BatRewind

open Encoding Tables

/-- `PendingCount`: the number of delivered and unacknowledged entries. -/
def Stream.pendingCount (q : Stream) : ℤ := q.pending.length

/-- The number of entries that are not acknowledged, delivered or not. -/
def Stream.backlog (q : Stream) : ℤ := q.undelivered.length + q.pending.length

/-! ## Streams -/

/-- The pending entries are entries, each of them once, and were delivered. -/
structure Stream.Consistent (q : Stream) : Prop where
  pending_nodup : q.pending.Nodup
  pending_keys : ∀ id ∈ q.pending, id ∈ q.entries.keys
  pending_delivered : ∀ m ∈ q.undelivered, m.id ∉ q.pending

namespace Stream

variable {q q' : Stream} {m : Message} {id : String} {data : Json}

theorem consistent_empty : Stream.empty.Consistent :=
  ⟨List.nodup_nil, by simp [empty], by simp [empty]⟩

theorem Consistent.enqueue (h : q.Consistent) (hq : q.enqueue id data = some q') :
    q'.Consistent := by
  obtain ⟨hrows, hfresh, hund, hpend⟩ := enqueue_cases hq
  refine ⟨hpend ▸ h.pending_nodup, fun i hi => ?_, fun m hm => ?_⟩
  · rw [Table.keys, hrows, List.map_append]
    exact List.mem_append_left _ (h.pending_keys i (hpend ▸ hi))
  · rw [hund, List.mem_append, List.mem_singleton] at hm
    rw [hpend]
    rcases hm with hm | rfl
    · exact h.pending_delivered m hm
    · exact fun hmem => hfresh (h.pending_keys _ hmem)

theorem Consistent.read (h : q.Consistent) (hq : q.read = some (m, q')) : q'.Consistent := by
  obtain ⟨hent, hpend, hund⟩ := read_cases hq
  have hm : m ∈ q.undelivered := hund ▸ List.mem_cons_self
  have hids : (q.undelivered.map Message.id).Nodup :=
    q.entries.nodup.sublist ((List.drop_sublist _ _).map _)
  rw [hund, List.map_cons, List.nodup_cons] at hids
  refine ⟨?_, fun i hi => ?_, fun m' hm' => ?_⟩
  · rw [hpend, List.nodup_append]
    refine ⟨h.pending_nodup, List.nodup_singleton _, fun a ha b hb => ?_⟩
    rw [List.mem_singleton] at hb
    rintro rfl
    exact h.pending_delivered m hm (hb ▸ ha)
  · rw [hpend, List.mem_append, List.mem_singleton] at hi
    rw [hent]
    rcases hi with hi | rfl
    · exact h.pending_keys i hi
    · exact Table.mem_keys.mpr ⟨m, mem_of_mem_undelivered hm, rfl⟩
  · rw [hpend, List.mem_append, List.mem_singleton]
    rintro (hmem | he)
    · exact h.pending_delivered m' (hund ▸ List.mem_cons_of_mem _ hm') hmem
    · exact hids.1 (he ▸ List.mem_map_of_mem hm')

theorem Consistent.ack (h : q.Consistent) (msgID : String) : (q.ack msgID).Consistent :=
  ⟨h.pending_nodup.filter _, fun i hi => h.pending_keys i (List.mem_of_mem_filter hi),
    fun m hm hi => h.pending_delivered m hm (List.mem_of_mem_filter hi)⟩

end Stream

namespace Worker

open WorkerPool

/-! ## The system -/

/-- **One tick of the monitor**, with the answer of `PendingCount`, the clock reading of
`time.Since` and the one of the scaling. -/
def monitorTick (cfg : Config) (conv : IntConversion) (order : List Handle) (since now : Time)
    (probe : Except String ℤ) (p : WorkerPool) : WorkerPool :=
  if !cfg.enableAutoscaling then p
  else
    match probe with
    | .error _ => p
    | .ok pending =>
      if since - p.lastScaleTime > cfg.cooldownPeriod then
        evaluateScaling cfg conv order now pending p
      else if pending > int64 (cfg.scaleUpThreshold * 5) ∧ p.activeWorkers < cfg.maxWorkerCount then
        evaluateScaling cfg conv order now pending p
      else p

/-- **The stream and the workers**: the message that each busy worker has in hand, the workers
that have returned, and the messages that were left pending. Workers are named by their channels. -/
structure Fleet where
  pool : WorkerPool
  queue : Stream
  hands : List (ℕ × String)
  quit : List ℕ
  lost : List String

/-- **One step.** A worker that is idle and has not returned reads; when it is done with the
message its `XACK` may fail; a worker that was signalled returns. -/
inductive FleetStep (cfg : Config) (conv : IntConversion) : Fleet → Fleet → Prop
  | enqueue (s : Fleet) (id : String) (data : Json) (q' : Stream)
      (h : s.queue.enqueue id data = some q') : FleetStep cfg conv s { s with queue := q' }
  | read (s : Fleet) (w : Handle) (m : Message) (q' : Stream) (hw : w ∈ s.pool.started)
      (hquit : w.stop ∉ s.quit) (hidle : w.stop ∉ s.hands.map Prod.fst)
      (h : s.queue.read = some (m, q')) :
      FleetStep cfg conv s { s with queue := q', hands := (w.stop, m.id) :: s.hands }
  | finish (s : Fleet) (c : ℕ) (msgID : String) (h : (c, msgID) ∈ s.hands) :
      FleetStep cfg conv s { s with
        queue := s.queue.ack msgID, hands := s.hands.filter fun t => t.1 ≠ c }
  | lose (s : Fleet) (c : ℕ) (msgID : String) (h : (c, msgID) ∈ s.hands) :
      FleetStep cfg conv s { s with
        hands := s.hands.filter fun t => t.1 ≠ c, lost := msgID :: s.lost }
  | quit (s : Fleet) (c : ℕ) (hsignal : c ∈ s.pool.signals) (hidle : c ∉ s.hands.map Prod.fst) :
      FleetStep cfg conv s { s with quit := c :: s.quit }
  | tick (s : Fleet) (order : List Handle) (since now : Time) (probe : Except String ℤ)
      (hprobe : ∀ n, probe = .ok n → n = s.queue.pendingCount)
      (hp : order.Perm s.pool.workerChannels.rows) :
      FleetStep cfg conv s { s with pool := monitorTick cfg conv order since now probe s.pool }

/-- The states after `Start`, with any consistent stream to begin with. -/
inductive Reachable (cfg : Config) (conv : IntConversion) : Fleet → Prop
  | start (now : Time) (p : WorkerPool) (q : Stream) (hq : q.Consistent)
      (h : Scales cfg conv (.scaleWorkers cfg.initialWorkerCount) (.new now) p) :
      Reachable cfg conv ⟨p, q, [], [], q.pending⟩
  | step {s s' : Fleet} (h : Reachable cfg conv s) (hstep : FleetStep cfg conv s s') :
      Reachable cfg conv s'

/-! ## Ticks -/

section Tick

variable {cfg : Config} {conv : IntConversion} {s s' : Fleet} {order : List Handle}
  {since now : Time}

/-- A tick does nothing, or evaluates the scaling with the number of pending entries. -/
theorem monitorTick_cases (cfg : Config) (conv : IntConversion) (order : List Handle)
    (since now : Time) (probe : Except String ℤ) (p : WorkerPool) :
    monitorTick cfg conv order since now probe p = p ∨ ∃ n, probe = .ok n ∧
      monitorTick cfg conv order since now probe p = evaluateScaling cfg conv order now n p := by
  unfold monitorTick
  cases probe with
  | error err => exact Or.inl (ite_self _)
  | ok n =>
    dsimp only
    split_ifs
    · exact Or.inl rfl
    · exact Or.inr ⟨n, rfl, rfl⟩
    · exact Or.inr ⟨n, rfl, rfl⟩
    · exact Or.inl rfl

theorem Reachable.inOrder (hv : cfg.Valid) (h : Reachable cfg conv s) : InOrder cfg s.pool := by
  induction h with
  | start now p q hq hstart => exact inOrder_start hv hstart
  | step _ hstep ih =>
    cases hstep with
    | tick order since now probe hprobe hp =>
      rcases monitorTick_cases cfg conv order since now
        probe _ with he | ⟨n, -, he⟩
      · rw [he]
        exact ih
      · have hcall : Scales cfg conv (.evaluateScaling n) _ _ := ⟨order, now, hp, he⟩
        exact ih.call hv hcall
    | _ => exact ih

/-- A tick after the cooldown makes the pool grow exactly if the pending entries exceed the
threshold and there is room. -/
theorem tick_grows_iff (hv : cfg.Valid) (hauto : cfg.enableAutoscaling = true)
    (h : Reachable cfg conv s) (hp : order.Perm s.pool.workerChannels.rows)
    (hcool : since - s.pool.lastScaleTime > cfg.cooldownPeriod) :
    s.pool.activeWorkers < (monitorTick cfg conv order since now
        (.ok s.queue.pendingCount) s.pool).activeWorkers ↔
      s.queue.pendingCount > cfg.scaleUpThreshold ∧
        s.pool.activeWorkers < cfg.maxWorkerCount := by
  have hin := h.inOrder hv
  have htick : monitorTick cfg conv order since now (.ok s.queue.pendingCount) s.pool =
      evaluateScaling cfg conv order now s.queue.pendingCount s.pool := by
    simp [monitorTick, hauto, hcool]
  obtain ⟨goal, hgoal, -, -, hcases⟩ := evaluateScaling_scaledTo hv hin.books hp hin.min_le
    hin.le_max conv now s.queue.pendingCount
  rw [htick, hgoal.active]
  split_ifs at hcases with hup hdown
  · exact iff_of_true hcases hup
  · exact iff_of_false (by omega) hup
  · exact iff_of_false (by omega) hup

/-- **A tick after the cooldown answers to the backlog exactly if the pending entries alone exceed
the threshold.** -/
theorem tick_scales_iff (hv : cfg.Valid) (hauto : cfg.enableAutoscaling = true)
    (h : Reachable cfg conv s) (hp : order.Perm s.pool.workerChannels.rows)
    (hcool : since - s.pool.lastScaleTime > cfg.cooldownPeriod) :
    (s.queue.backlog > cfg.scaleUpThreshold ∧ s.pool.activeWorkers < cfg.maxWorkerCount →
      s.pool.activeWorkers < (monitorTick cfg conv order since now
        (.ok s.queue.pendingCount) s.pool).activeWorkers) ↔
    (s.queue.backlog > cfg.scaleUpThreshold ∧ s.pool.activeWorkers < cfg.maxWorkerCount →
      s.queue.pendingCount > cfg.scaleUpThreshold) := by
  refine forall_congr' fun hback => ?_
  rw [tick_grows_iff hv hauto h hp hcool]
  exact ⟨fun hup => hup.1, fun hpend => ⟨hpend, hback.2⟩⟩

end Tick

/-! ## What the monitor can see -/

section Pending

variable {cfg : Config} {conv : IntConversion} {s s' : Fleet}

/-- Every pending entry is in the hand of a worker or was left behind, and no worker has two. -/
structure Accounted (s : Fleet) : Prop where
  queue : s.queue.Consistent
  in_hand : ∀ id ∈ s.queue.pending, id ∈ s.hands.map Prod.snd ∨ id ∈ s.lost
  hands_nodup : (s.hands.map Prod.fst).Nodup
  hands_started : ∀ c ∈ s.hands.map Prod.fst, c ∈ s.pool.started.map Handle.stop

/-- What a worker that is done leaves of the hands. -/
theorem mem_hands_filter {c : ℕ} {msgID id : String} {hands : List (ℕ × String)}
    (hnd : (hands.map Prod.fst).Nodup) (h : (c, msgID) ∈ hands) (hid : id ≠ msgID)
    (hmem : id ∈ hands.map Prod.snd) : id ∈ (hands.filter fun t => t.1 ≠ c).map Prod.snd := by
  obtain ⟨t, ht, rfl⟩ := List.mem_map.mp hmem
  refine List.mem_map_of_mem (List.mem_filter.mpr ⟨ht, ?_⟩)
  rw [decide_eq_true_iff]
  intro hc
  exact hid (congrArg Prod.snd (List.inj_on_of_nodup_map hnd ht h hc))

theorem Accounted.step (h : Accounted s) (hv : cfg.Valid) (hin : InOrder cfg s.pool)
    (hstep : FleetStep cfg conv s s') : Accounted s' := by
  have hfilter : ∀ c : ℕ, ((s.hands.filter fun t => t.1 ≠ c).map Prod.fst).Sublist
      (s.hands.map Prod.fst) := fun c => List.filter_sublist.map _
  cases hstep with
  | enqueue id data q' hq =>
    obtain ⟨-, -, -, hpend⟩ := Stream.enqueue_cases hq
    exact ⟨h.queue.enqueue hq, hpend ▸ h.in_hand, h.hands_nodup, h.hands_started⟩
  | read w m q' hw hquit hidle hq =>
    obtain ⟨-, hpend, -⟩ := Stream.read_cases hq
    refine ⟨h.queue.read hq, fun i hi => ?_, ?_, ?_⟩
    · dsimp only at hi ⊢
      rw [hpend, List.mem_append, List.mem_singleton] at hi
      rw [List.map_cons, List.mem_cons]
      rcases hi with hi | rfl
      · exact (h.in_hand i hi).imp_left Or.inr
      · exact Or.inl (Or.inl rfl)
    · exact List.nodup_cons.mpr ⟨hidle, h.hands_nodup⟩
    · intro c hc
      rcases List.mem_cons.mp hc with rfl | hc
      · exact List.mem_map_of_mem hw
      · exact h.hands_started c hc
  | finish c msgID hmem =>
    refine ⟨h.queue.ack msgID, fun i hi => ?_,
      h.hands_nodup.sublist (hfilter c), fun x hx => h.hands_started x ((hfilter c).subset hx)⟩
    obtain ⟨hi, hne⟩ := Stream.mem_pending_ack.mp hi
    exact (h.in_hand i hi).imp_left (mem_hands_filter h.hands_nodup hmem hne)
  | lose c msgID hmem =>
    refine ⟨h.queue, fun i hi => ?_,
      h.hands_nodup.sublist (hfilter c), fun x hx => h.hands_started x ((hfilter c).subset hx)⟩
    dsimp only
    rw [List.mem_cons]
    by_cases hne : i = msgID
    · exact Or.inr (Or.inl hne)
    · exact (h.in_hand i hi).imp (mem_hands_filter h.hands_nodup hmem hne) Or.inr
  | quit c hsignal hidle => exact ⟨h.queue, h.in_hand, h.hands_nodup, h.hands_started⟩
  | tick order since now probe hprobe hp =>
    refine ⟨h.queue, h.in_hand, h.hands_nodup, fun c hc => ?_⟩
    have hc := h.hands_started c hc
    dsimp only
    rcases monitorTick_cases cfg conv order since now probe s.pool with he | ⟨n, -, he⟩
    · rwa [he]
    · rw [he]
      obtain ⟨goal, hgoal, -⟩ := evaluateScaling_scaledTo hv hin.books hp hin.min_le hin.le_max
        conv now n
      obtain ⟨new, hs, -⟩ := hgoal.fresh
      rw [hs, List.map_append]
      exact List.mem_append_left _ hc

theorem Reachable.accounted (hv : cfg.Valid) (h : Reachable cfg conv s) : Accounted s := by
  induction h with
  | start now p q hq hstart =>
    exact ⟨hq, fun id hid => Or.inr hid, List.nodup_nil, fun c hc => absurd hc List.not_mem_nil⟩
  | step h hstep ih => exact ih.step hv (h.inOrder hv) hstep

/-- **The monitor sees at most one entry per worker**, apart from those left behind. -/
theorem Accounted.pendingCount_le (h : Accounted s) :
    s.queue.pendingCount ≤ s.pool.started.length + s.lost.length := by
  have hsub : s.queue.pending ⊆ s.hands.map Prod.snd ++ s.lost :=
    fun id hid => List.mem_append.mpr (h.in_hand id hid)
  have hpend := (List.subperm_of_subset h.queue.pending_nodup hsub).length_le
  have hhands := (List.subperm_of_subset h.hands_nodup h.hands_started).length_le
  rw [List.length_append, List.length_map] at hpend
  rw [List.length_map, List.length_map] at hhands
  unfold Stream.pendingCount
  omega

/-- **The pool never grows** while the initial workers and the entries left behind together do not
exceed `ScaleUpThreshold`, however many entries wait to be delivered. -/
theorem never_scales_up (hv : cfg.Valid) (h : Reachable cfg conv s)
    (hle : min cfg.maxWorkerCount (max cfg.minWorkerCount cfg.initialWorkerCount) +
      s.lost.length ≤ cfg.scaleUpThreshold) :
    (s.pool.started.length : ℤ) =
      min cfg.maxWorkerCount (max cfg.minWorkerCount cfg.initialWorkerCount) := by
  have hmin := hv.one_le_min
  have hmax := hv.min_le_max
  induction h with
  | start now p q hq hstart =>
    obtain ⟨order, now', hp, rfl⟩ := hstart
    have hcount := (scaleWorkers_scaledTo hv (books_new now) hp now' cfg.initialWorkerCount).count
    change ((scaleWorkers cfg order now' cfg.initialWorkerCount (.new now)).started.length : ℤ) = _
    rw [hcount]
    change ((0 : ℕ) : ℤ) + max 0 (_ - 0) = _
    omega
  | step h hstep ih =>
    cases hstep with
    | tick order since now probe hprobe hp =>
      have hstarted := ih hle
      have hpend := (h.accounted hv).pendingCount_le
      have hin := h.inOrder hv
      rcases monitorTick_cases cfg conv order since now probe _ with he | ⟨n, hn, he⟩
      · rw [he]
        exact hstarted
      · obtain ⟨goal, hgoal, -, -, hcases⟩ := evaluateScaling_scaledTo hv hin.books hp hin.min_le
          hin.le_max conv now n
        have hcount := hgoal.count
        have hn := hprobe n hn
        dsimp only at hle ⊢
        rw [he]
        rw [if_neg (by omega)] at hcases
        split_ifs at hcases <;> omega
    | lose c msgID hmem =>
      refine ih ?_
      dsimp only at hle
      rw [List.length_cons] at hle
      omega
    | _ => exact ih hle

end Pending

/-! ## Bursts -/

section Burst

variable {cfg : Config} {conv : IntConversion} {s : Fleet}

/-- The writer may add any number of entries. -/
theorem Reachable.enqueue (h : Reachable cfg conv s) (n : ℕ) :
    ∃ q, Reachable cfg conv { s with queue := q } ∧ q.pending = s.queue.pending ∧
      q.undelivered.length = s.queue.undelivered.length + n := by
  induction n with
  | zero => exact ⟨s.queue, h, rfl, rfl⟩
  | succ n ih =>
    obtain ⟨q, hq, hpend, hlen⟩ := ih
    obtain ⟨id, hid⟩ := Infinite.exists_notMem_finset q.entries.keys.toFinset
    obtain ⟨q', hq'⟩ := Stream.exists_enqueue (.obj []) fun hmem => hid (List.mem_toFinset.mpr hmem)
    obtain ⟨-, -, hund, hpend'⟩ := Stream.enqueue_cases hq'
    refine ⟨q', .step hq (.enqueue _ id _ q' hq'), hpend'.trans hpend, ?_⟩
    rw [hund, List.length_append, hlen]
    rfl

/-- An idle worker may read the next entry. -/
theorem Reachable.read (h : Reachable cfg conv s) {w : Handle} (hw : w ∈ s.pool.started)
    (hquit : s.quit = []) (hidle : w.stop ∉ s.hands.map Prod.fst) {n : ℕ}
    (hn : s.queue.undelivered.length = n + 1) :
    ∃ q id, Reachable cfg conv { s with queue := q, hands := (w.stop, id) :: s.hands } ∧
      q.undelivered.length = n ∧ q.pending.length = s.queue.pending.length + 1 := by
  obtain ⟨m, ms, hms⟩ : ∃ m ms, s.queue.undelivered = m :: ms :=
    List.exists_cons_of_length_eq_add_one hn
  obtain ⟨q, hq⟩ := Stream.exists_read hms
  obtain ⟨-, hpend, hund⟩ := Stream.read_cases hq
  refine ⟨q, m.id, .step h (.read _ w m q hw (by simp [hquit]) hidle hq), ?_, ?_⟩
  · rw [hund, List.length_cons] at hn
    omega
  · rw [hpend, List.length_append]
    rfl

/-- **A burst.** Of `n + 2` entries two are delivered to the first two workers, and the other `n`
wait. -/
theorem exists_burst (hv : cfg.Valid) (conv : IntConversion) (h₁ : cfg.minWorkerCount ≤ 2)
    (h₂ : 2 ≤ cfg.maxWorkerCount) (h₃ : cfg.initialWorkerCount = 2) (n : ℕ) :
    ∃ s, Reachable cfg conv s ∧ s.pool.activeWorkers = 2 ∧ s.queue.undelivered.length = n ∧
      s.queue.pending.length = 2 := by
  obtain ⟨p, hp⟩ : ∃ p, Scales cfg conv (.scaleWorkers cfg.initialWorkerCount) (.new 0) p :=
    ⟨_, [], 0, .nil, rfl⟩
  have hscaled : ScaledTo 2 (.new 0) p := by
    obtain ⟨order, now, hperm, rfl⟩ := hp
    have hgoal := scaleWorkers_scaledTo hv (books_new 0) hperm now cfg.initialWorkerCount
    rw [h₃, max_eq_right h₁, min_eq_right h₂, ← h₃] at hgoal
    exact h₃ ▸ hgoal
  have hlen : p.started.length = 2 := by
    have hcount := hscaled.count
    change (p.started.length : ℤ) = ((0 : ℕ) : ℤ) + max 0 (2 - 0) at hcount
    omega
  have hstops := hscaled.books.serial
  rw [hlen] at hstops
  have hworker : ∀ c < 2, ∃ w ∈ p.started, w.stop = c := fun c hc =>
    List.mem_map.mp (hstops ▸ List.mem_range.mpr hc)
  obtain ⟨w₀, hw₀, hc₀⟩ := hworker 0 (by omega)
  obtain ⟨w₁, hw₁, hc₁⟩ := hworker 1 (by omega)
  have hstart : Reachable cfg conv ⟨p, .empty, [], [], []⟩ :=
    .start 0 p .empty Stream.consistent_empty hp
  obtain ⟨q, hq, hpend, hund⟩ := hstart.enqueue (n + 2)
  obtain ⟨q₁, id₁, hr₁, hund₁, hpend₁⟩ := hq.read hw₀ rfl (by simp) (n := n + 1) (by
    dsimp only
    rw [hund]
    exact Nat.zero_add _)
  obtain ⟨q₂, id₂, hr₂, hund₂, hpend₂⟩ := hr₁.read hw₁ rfl (by simp [hc₀, hc₁]) hund₁
  refine ⟨_, hr₂, hscaled.active, hund₂, ?_⟩
  dsimp only
  rw [hpend₂]
  dsimp only
  rw [hpend₁]
  dsimp only
  rw [hpend]
  rfl

/-- A threshold of one, two busy workers and an entry that waits. -/
theorem tick_scales_busy : ∃ s, Reachable { defaultConfig with scaleUpThreshold := 1 } amd64 s ∧
    s.pool.activeWorkers = 2 ∧ s.queue.backlog = 3 ∧
    s.pool.activeWorkers < (monitorTick { defaultConfig with scaleUpThreshold := 1 } amd64
      s.pool.workerChannels.rows (s.pool.lastScaleTime + 16 * 1000000000) 0
      (.ok s.queue.pendingCount) s.pool).activeWorkers := by
  have hv : { defaultConfig with scaleUpThreshold := 1 }.Valid :=
    ⟨defaultConfig_valid.one_le_min, defaultConfig_valid.min_le_max,
      defaultConfig_valid.one_lt_factor⟩
  obtain ⟨s, hs, hactive, hund, hpend⟩ := exists_burst hv amd64 le_rfl (by decide) rfl 1
  have hback : s.queue.backlog = 3 := by
    simp [Stream.backlog, hund, hpend]
  refine ⟨s, hs, hactive, hback, ?_⟩
  refine (tick_scales_iff hv rfl hs (.refl _) ?_).mpr (fun _ => ?_) ⟨?_, ?_⟩
  · rw [add_sub_cancel_left]
    decide
  · rw [Stream.pendingCount, hpend]
    decide
  · rw [hback]
    decide
  · rw [hactive]
    decide

/-- Twenty entries and two workers of the default configuration: the pool does not grow. -/
theorem not_tick_scales : ¬ ∀ cfg conv s order since now, cfg.Valid →
    cfg.enableAutoscaling = true → 0 ≤ cfg.scaleUpThreshold → Reachable cfg conv s →
    order.Perm s.pool.workerChannels.rows →
    since - s.pool.lastScaleTime > cfg.cooldownPeriod →
    s.queue.backlog > cfg.scaleUpThreshold ∧ s.pool.activeWorkers < cfg.maxWorkerCount →
    s.pool.activeWorkers < (monitorTick cfg conv order since now
      (.ok s.queue.pendingCount) s.pool).activeWorkers := by
  intro hall
  obtain ⟨s, hs, hactive, hund, hpend⟩ :=
    exists_burst defaultConfig_valid amd64 le_rfl (by decide) rfl 18
  have hback : s.queue.backlog = 20 := by
    simp [Stream.backlog, hund, hpend]
  have hcool : s.pool.lastScaleTime + 16 * 1000000000 - s.pool.lastScaleTime >
      defaultConfig.cooldownPeriod := by
    rw [add_sub_cancel_left]
    decide
  have hpre : s.queue.backlog > defaultConfig.scaleUpThreshold ∧
      s.pool.activeWorkers < defaultConfig.maxWorkerCount := by
    rw [hback, hactive]
    decide
  have hgrow := hall defaultConfig amd64 s s.pool.workerChannels.rows _ 0 defaultConfig_valid rfl
    (by decide) hs (.refl _) hcool hpre
  have hseen : ¬ s.queue.pendingCount > defaultConfig.scaleUpThreshold := by
    rw [Stream.pendingCount, hpend]
    decide
  exact hseen ((tick_grows_iff defaultConfig_valid rfl hs (.refl _) hcool).mp hgrow).1

end Burst

end Worker

end BatRewind
