import BatRewind.Lib.Log
import BatRewind.Worker.Backlog

/-!
# The cooldown of the autoscaler

The monitor of `internal/worker/service.go` over any run of ticks after the initial scaling of
`Start`. The changes of `activeWorkers` are recorded with the reading at which `lastScaleTime` was
written.

* `Monitor.tick`: one tick; `Monitor.start`: the state after `Start`; `Monitor.run`: a run of ticks.
* `Change.Respects`: a change at most the cooldown after another one grows the pool to its maximum.
* `Tick.Misfires`: the product with five has wrapped around, and the emergency branch shrinks.
* **`Misfires.tick_eq`**, `Misfires.shrinks`, **`Tick.grows_to_max`**: what a tick does within the
  cooldown; **`Recorded.respects_iff`**: the step of the run.
* **`cooldown_iff`**: all changes of a run respect the cooldown exactly if no tick misfires;
  `cooldown_of_small`: they do if the product fits an `int64`.
-/

namespace BatRewind

open Logs

namespace Worker

/-! ## Runs of ticks -/

/-- A tick: the iteration order of the map, the reading that the cooldown is checked with, the
reading after scaling, and the answer of `PendingCount`. -/
structure Tick where
  order : List Handle
  since : Time
  now : Time
  probe : Except String ℤ

/-- A change of `activeWorkers`. -/
structure Change where
  time : Time
  before : ℤ
  after : ℤ

/-- The pool, the changes of `activeWorkers` so far and the last reading of the clock. -/
structure Monitor where
  pool : WorkerPool
  changes : List Change
  clock : Time

/-- What is recorded when the pool goes from `p` to `p'` at the reading `now`. -/
def changed (p p' : WorkerPool) (now : Time) : List Change :=
  if p'.activeWorkers = p.activeWorkers then [] else [⟨now, p.activeWorkers, p'.activeWorkers⟩]

namespace Monitor

/-- The service is created, and `Start` scales it at the reading `now`. The map is empty. -/
def start (cfg : Config) (created now : Time) : Monitor :=
  let p := WorkerPool.scaleWorkers cfg [] now cfg.initialWorkerCount (.new created)
  ⟨p, changed (.new created) p now, now⟩

def tick (cfg : Config) (conv : IntConversion) (m : Monitor) (t : Tick) : Monitor :=
  let p := monitorTick cfg conv t.order t.since t.now t.probe m.pool
  ⟨p, m.changes ++ changed m.pool p t.now, t.now⟩

/-- **A run of ticks.** -/
def run (cfg : Config) (conv : IntConversion) (m : Monitor) (ticks : List Tick) : Monitor :=
  ticks.foldl (tick cfg conv) m

end Monitor

/-- The tick iterates over the map as it is, and its readings come after the ones before. -/
structure Tick.Fits (t : Tick) (m : Monitor) : Prop where
  order : t.order.Perm m.pool.workerChannels.rows
  clock_le : m.clock ≤ t.since
  since_le : t.since ≤ t.now

/-- Each tick of a run fits the state in which it is taken. -/
def FitsRun (cfg : Config) (conv : IntConversion) (m : Monitor) (ticks : List Tick) : Prop :=
  ∀ m' t, Taken (Monitor.tick cfg conv) m ticks m' t → t.Fits m'

/-- If `d` comes at most the cooldown after `c`, then `d` grows the pool to its maximum. -/
def Change.Respects (cfg : Config) (c d : Change) : Prop :=
  d.time - c.time ≤ cfg.cooldownPeriod → d.before < d.after ∧ d.after = cfg.maxWorkerCount

/-- **A misfire**: within the cooldown, the pending entries exceed the wrapped product with five but
not the threshold, and the pool has room to shrink. -/
def Tick.Misfires (cfg : Config) (t : Tick) (p : WorkerPool) : Prop :=
  cfg.enableAutoscaling = true ∧ t.now - p.lastScaleTime ≤ cfg.cooldownPeriod ∧
    cfg.minWorkerCount < p.activeWorkers ∧ p.activeWorkers < cfg.maxWorkerCount ∧
    ∃ n, t.probe = .ok n ∧ int64 (cfg.scaleUpThreshold * 5) < n ∧ n ≤ cfg.scaleUpThreshold ∧
      n < cfg.scaleDownThreshold

/-! ## One tick -/

section Tick

open WorkerPool

variable {cfg : Config} {conv : IntConversion} {order : List Handle} {since now : Time}
  {probe : Except String ℤ} {p : WorkerPool} {t : Tick}

theorem scaleWorkers_lastScaleTime (cfg : Config) (order : List Handle) (now : Time) (target : ℤ)
    (p : WorkerPool) :
    scaleWorkers cfg order now target p = p ∨
      (scaleWorkers cfg order now target p).lastScaleTime = now := by
  unfold scaleWorkers scaleDown
  dsimp only
  split_ifs <;> simp [scaleUp]

theorem monitorTick_lastScaleTime (cfg : Config) (conv : IntConversion) (order : List Handle)
    (since now : Time) (probe : Except String ℤ) (p : WorkerPool) :
    monitorTick cfg conv order since now probe p = p ∨
      (monitorTick cfg conv order since now probe p).lastScaleTime = now := by
  rcases monitorTick_cases cfg conv order since now probe p with he | ⟨n, -, he⟩
  · exact Or.inl he
  · rw [he]
    unfold evaluateScaling
    split_ifs
    · exact scaleWorkers_lastScaleTime ..
    · exact scaleWorkers_lastScaleTime ..
    · exact Or.inl rfl

/-- A tick that leaves the number of workers alone leaves the pool alone. -/
theorem monitorTick_same (hv : cfg.Valid) (h : InOrder cfg p)
    (hp : order.Perm p.workerChannels.rows)
    (heq : (monitorTick cfg conv order since now probe p).activeWorkers = p.activeWorkers) :
    monitorTick cfg conv order since now probe p = p := by
  rcases monitorTick_cases cfg conv order since now probe p with he | ⟨n, -, he⟩
  · exact he
  · rw [he] at heq ⊢
    obtain ⟨goal, hgoal, -⟩ :=
      evaluateScaling_scaledTo hv h.books hp h.min_le h.le_max conv now n
    exact hgoal.same (hgoal.active.symm.trans heq)

theorem InOrder.monitorTick (hv : cfg.Valid) (h : InOrder cfg p)
    (hp : order.Perm p.workerChannels.rows) :
    InOrder cfg (monitorTick cfg conv order since now probe p) := by
  rcases monitorTick_cases cfg conv order since now probe p with he | ⟨n, -, he⟩
  · rw [he]
    exact h
  · have hcall : Scales cfg conv (.evaluateScaling n) p _ := ⟨order, now, hp, he⟩
    exact h.call hv hcall

/-- Within the cooldown a tick that changes the pool is an emergency. -/
theorem monitorTick_emergency (hsince : since ≤ now)
    (hcool : now - p.lastScaleTime ≤ cfg.cooldownPeriod) :
    monitorTick cfg conv order since now probe p = p ∨
      ∃ n, cfg.enableAutoscaling = true ∧ probe = .ok n ∧ int64 (cfg.scaleUpThreshold * 5) < n ∧
        p.activeWorkers < cfg.maxWorkerCount ∧
        monitorTick cfg conv order since now probe p =
          evaluateScaling cfg conv order now n p := by
  have hin : ¬ since - p.lastScaleTime > cfg.cooldownPeriod :=
    not_lt.mpr ((sub_le_sub_right hsince p.lastScaleTime).trans hcool)
  cases hauto : cfg.enableAutoscaling with
  | false => exact Or.inl (by simp [Worker.monitorTick, hauto])
  | true =>
    cases probe with
    | error err => exact Or.inl (by simp [Worker.monitorTick])
    | ok n =>
      by_cases hburst : n > int64 (cfg.scaleUpThreshold * 5) ∧ p.activeWorkers < cfg.maxWorkerCount
      · refine Or.inr ⟨n, rfl, rfl, hburst.1, hburst.2, ?_⟩
        simp [Worker.monitorTick, hauto, hin, hburst]
      · exact Or.inl (by simp only [Worker.monitorTick, if_neg hin, if_neg hburst, ite_self])

/-- Above the threshold, an emergency brings the pool to its maximum. -/
theorem evaluateScaling_emergency (hv : cfg.Valid) (h : InOrder cfg p)
    (hp : order.Perm p.workerChannels.rows) {n : ℤ} (hn : int64 (cfg.scaleUpThreshold * 5) < n)
    (hup : cfg.scaleUpThreshold < n) (hroom : p.activeWorkers < cfg.maxWorkerCount) :
    (evaluateScaling cfg conv order now n p).activeWorkers = cfg.maxWorkerCount := by
  have htarget : upTarget cfg conv n p.activeWorkers = cfg.maxWorkerCount := by
    unfold upTarget
    dsimp only
    rw [if_pos hn, if_neg (by omega)]
  have hgoal := scaleWorkers_scaledTo hv h.books hp now cfg.maxWorkerCount
  have hle := hv.min_le_max
  rw [evaluateScaling, if_pos ⟨hup, hroom⟩, htarget, hgoal.active]
  omega

/-- Above the product with five, and with room to grow, the tick does not look at the cooldown. -/
theorem monitorTick_burst (hauto : cfg.enableAutoscaling = true) {n : ℤ}
    (hn : int64 (cfg.scaleUpThreshold * 5) < n) (hroom : p.activeWorkers < cfg.maxWorkerCount) :
    monitorTick cfg conv order since now (.ok n) p = evaluateScaling cfg conv order now n p := by
  simp [Worker.monitorTick, hauto, hn, hroom]

/-- **A misfire scales the pool down.** -/
theorem Tick.Misfires.tick_eq (hm : t.Misfires cfg p) :
    monitorTick cfg conv t.order t.since t.now t.probe p =
      scaleWorkers cfg t.order t.now (downTarget cfg conv p.activeWorkers) p := by
  obtain ⟨hauto, -, hmin, hmax, n, hprobe, hn, hup, hdown⟩ := hm
  have hlow : ¬ (n > cfg.scaleUpThreshold ∧ p.activeWorkers < cfg.maxWorkerCount) := fun hhigh =>
    not_lt_of_ge hup hhigh.1
  have hdown : n < cfg.scaleDownThreshold ∧ p.activeWorkers > cfg.minWorkerCount := ⟨hdown, hmin⟩
  rw [hprobe, monitorTick_burst hauto hn hmax, evaluateScaling, if_neg hlow, if_pos hdown]

theorem Tick.Misfires.shrinks (hv : cfg.Valid) (h : InOrder cfg p)
    (hp : t.order.Perm p.workerChannels.rows) (hm : t.Misfires cfg p) :
    (monitorTick cfg conv t.order t.since t.now t.probe p).activeWorkers < p.activeWorkers := by
  have hlt := downTarget_lt hv conv hm.2.2.1 h.le_max
  have hmin := hm.2.2.1
  rw [hm.tick_eq, (scaleWorkers_scaledTo hv h.books hp t.now _).active]
  omega

/-- **Within the cooldown, a tick that changes the pool and does not misfire grows it to its
maximum.** -/
theorem Tick.grows_to_max (hv : cfg.Valid) (h : InOrder cfg p)
    (hp : t.order.Perm p.workerChannels.rows) (hsince : t.since ≤ t.now)
    (hcool : t.now - p.lastScaleTime ≤ cfg.cooldownPeriod) (hm : ¬ t.Misfires cfg p)
    (hne : (monitorTick cfg conv t.order t.since t.now t.probe p).activeWorkers ≠
      p.activeWorkers) :
    p.activeWorkers < (monitorTick cfg conv t.order t.since t.now t.probe p).activeWorkers ∧
      (monitorTick cfg conv t.order t.since t.now t.probe p).activeWorkers =
        cfg.maxWorkerCount := by
  rcases monitorTick_emergency hsince hcool with he | ⟨n, hauto, hprobe, hn, hroom, he⟩
  · exact absurd (congrArg WorkerPool.activeWorkers he) hne
  by_cases hup : cfg.scaleUpThreshold < n
  · rw [he, evaluateScaling_emergency hv h hp hn hup hroom]
    exact ⟨hroom, rfl⟩
  · exfalso
    obtain ⟨goal, hgoal, -, -, hcases⟩ :=
      evaluateScaling_scaledTo hv h.books hp h.min_le h.le_max conv t.now n
    rw [he, hgoal.active] at hne
    rw [if_neg (by omega)] at hcases
    split_ifs at hcases with hdown
    · exact hm ⟨hauto, hcool, hdown.2, hroom, n, hprobe, hn, by omega, hdown.1⟩
    · exact hne hcases

/-- No tick misfires unless the product with five is out of range. -/
theorem not_misfires (h0 : 0 ≤ cfg.scaleUpThreshold) (h5 : cfg.scaleUpThreshold * 5 < 2 ^ 63) :
    ¬ t.Misfires cfg p := by
  rintro ⟨-, -, -, -, n, -, hn, hup, -⟩
  have hexact : int64 (cfg.scaleUpThreshold * 5) = cfg.scaleUpThreshold * 5 := by
    unfold int64
    rw [Int.bmod_eq_of_le] <;> omega
  omega

end Tick

/-! ## Runs -/

section Runs

open WorkerPool

variable {cfg : Config} {conv : IntConversion} {m : Monitor} {t : Tick} {p p' : WorkerPool}
  {now : Time}

theorem changed_of_eq (h : p'.activeWorkers = p.activeWorkers) : changed p p' now = [] := if_pos h

theorem changed_of_ne (h : p'.activeWorkers ≠ p.activeWorkers) :
    changed p p' now = [⟨now, p.activeWorkers, p'.activeWorkers⟩] := if_neg h

/-- `lastScaleTime` is the time of the last recorded change. -/
structure Recorded (cfg : Config) (m : Monitor) : Prop where
  inOrder : InOrder cfg m.pool
  last_mem : ∃ c ∈ m.changes, c.time = m.pool.lastScaleTime
  le_last : ∀ c ∈ m.changes, c.time ≤ m.pool.lastScaleTime
  last_le : m.pool.lastScaleTime ≤ m.clock

/-- What a scaling to `goal` records. -/
theorem Recorded.scaled (cs : List Change) (hin : InOrder cfg p') (hnow : p'.lastScaleTime = now)
    (hne : p'.activeWorkers ≠ p.activeWorkers) (hcs : ∀ c ∈ cs, c.time ≤ now) :
    Recorded cfg ⟨p', cs ++ changed p p' now, now⟩ := by
  rw [changed_of_ne hne]
  refine ⟨hin, ⟨⟨now, _, _⟩, List.mem_append_right _ List.mem_cons_self, hnow.symm⟩,
    fun c hc => ?_, hnow.le⟩
  dsimp only
  rw [hnow]
  rcases List.mem_append.mp hc with hc | hc
  · exact hcs c hc
  · rw [List.mem_singleton.mp hc]

theorem inOrder_monitorStart (hv : cfg.Valid) (created now : Time) :
    InOrder cfg (Monitor.start cfg created now).pool := by
  have hstart : Scales cfg amd64 (.scaleWorkers cfg.initialWorkerCount) (.new created)
      (Monitor.start cfg created now).pool := ⟨[], now, .nil, rfl⟩
  exact inOrder_start hv hstart

theorem start_activeWorkers_ne (hv : cfg.Valid) (created now : Time) :
    (Monitor.start cfg created now).pool.activeWorkers ≠ (new created).activeWorkers := by
  have hpos := hv.one_le_min.trans (inOrder_monitorStart hv created now).min_le
  exact ne_of_gt (Int.lt_of_lt_of_le zero_lt_one hpos)

theorem start_lastScaleTime (hv : cfg.Valid) (created now : Time) :
    (Monitor.start cfg created now).pool.lastScaleTime = now := by
  rcases scaleWorkers_lastScaleTime cfg [] now cfg.initialWorkerCount (.new created) with he | he
  · exact absurd (congrArg activeWorkers he) (start_activeWorkers_ne hv created now)
  · exact he

theorem recorded_start (hv : cfg.Valid) (created now : Time) :
    Recorded cfg (.start cfg created now) :=
  Recorded.scaled [] (inOrder_monitorStart hv created now) (start_lastScaleTime hv created now)
    (start_activeWorkers_ne hv created now) (by simp)

theorem tick_lastScaleTime
    (hne : (m.tick cfg conv t).pool.activeWorkers ≠ m.pool.activeWorkers) :
    (m.tick cfg conv t).pool.lastScaleTime = t.now := by
  rcases monitorTick_lastScaleTime cfg conv t.order t.since t.now t.probe m.pool with he | he
  · exact absurd (congrArg activeWorkers he) hne
  · exact he

theorem Recorded.tick (hv : cfg.Valid) (h : Recorded cfg m) (hf : t.Fits m) :
    Recorded cfg (m.tick cfg conv t) := by
  have hnow : m.pool.lastScaleTime ≤ t.now := h.last_le.trans (hf.clock_le.trans hf.since_le)
  by_cases heq : (m.tick cfg conv t).pool.activeWorkers = m.pool.activeWorkers
  · have hsame := monitorTick_same hv h.inOrder hf.order heq
    rw [Monitor.tick, hsame, changed_of_eq rfl, List.append_nil]
    exact ⟨h.inOrder, h.last_mem, h.le_last, hnow⟩
  · exact .scaled _ (h.inOrder.monitorTick hv hf.order) (tick_lastScaleTime heq) heq fun c hc =>
      (h.le_last c hc).trans hnow

/-- **What one tick records respects the earlier changes exactly if the tick does not misfire.** -/
theorem Recorded.respects_iff (hv : cfg.Valid) (h : Recorded cfg m) (hf : t.Fits m) :
    (∀ b ∈ m.changes, ∀ c ∈ changed m.pool
      (monitorTick cfg conv t.order t.since t.now t.probe m.pool) t.now, b.Respects cfg c) ↔
      ¬ t.Misfires cfg m.pool := by
  constructor
  · intro hall hm
    have hlt : (monitorTick cfg conv t.order t.since t.now t.probe m.pool).activeWorkers <
        m.pool.activeWorkers := hm.shrinks hv h.inOrder hf.order
    obtain ⟨b, hb, hbt⟩ := h.last_mem
    rw [changed_of_ne hlt.ne] at hall
    have hup := (hall b hb _ List.mem_cons_self (hbt.symm ▸ hm.2.1)).1
    exact lt_asymm hlt hup
  · intro hm b hb c hc hcool
    by_cases heq : (monitorTick cfg conv t.order t.since t.now t.probe m.pool).activeWorkers =
        m.pool.activeWorkers
    · rw [changed_of_eq heq] at hc
      exact absurd hc List.not_mem_nil
    · rw [changed_of_ne heq] at hc
      obtain rfl := List.mem_singleton.mp hc
      have hlast : t.now - m.pool.lastScaleTime ≤ cfg.cooldownPeriod :=
        (sub_le_sub_left (h.le_last b hb) t.now).trans hcool
      exact Tick.grows_to_max hv h.inOrder hf.order hf.since_le hlast hm heq

theorem grows_changes (cfg : Config) (conv : IntConversion) :
    Grows (Monitor.tick cfg conv) Monitor.changes := fun _ _ => List.prefix_append ..

theorem changed_pairwise (R : Change → Change → Prop) (p p' : WorkerPool) (now : Time) :
    (changed p p' now).Pairwise R := by
  unfold changed
  split_ifs
  · exact List.Pairwise.nil
  · exact List.pairwise_singleton _ _

/-- A run of ticks from any state whose changes respect the cooldown. -/
theorem Recorded.run_iff (hv : cfg.Valid) (h : Recorded cfg m)
    (hm : m.changes.Pairwise (Change.Respects cfg)) {ticks : List Tick}
    (hfits : FitsRun cfg conv m ticks) :
    (m.run cfg conv ticks).changes.Pairwise (Change.Respects cfg) ↔
      ∀ m' t, Taken (Monitor.tick cfg conv) m ticks m' t → ¬ t.Misfires cfg m'.pool := by
  rw [Monitor.run, (grows_changes cfg conv).pairwise_iff, and_iff_right hm]
  refine forall₃_congr fun m' t ht => ?_
  have hrec : Recorded cfg m' :=
    ht.invariant_taken h fun _ _ htaken hrec => hrec.tick hv (hfits _ _ htaken)
  have hnew : added (Monitor.tick cfg conv) Monitor.changes m' t =
      changed m'.pool (m'.tick cfg conv t).pool t.now := added_eq rfl
  rw [hnew, and_iff_right (changed_pairwise ..)]
  exact hrec.respects_iff hv (hfits m' t ht)

theorem start_pairwise (cfg : Config) (created now : Time) :
    (Monitor.start cfg created now).changes.Pairwise (Change.Respects cfg) :=
  changed_pairwise ..

theorem fitsRun_nil : FitsRun cfg conv m [] := by
  rintro m' t ⟨before, after, hnil, -⟩
  exact absurd hnil (by simp)

theorem FitsRun.concat {ticks : List Tick} (h : FitsRun cfg conv m ticks)
    (ht : t.Fits (m.run cfg conv ticks)) : FitsRun cfg conv m (ticks ++ [t]) := by
  intro m' t' htaken
  rcases taken_concat.mp htaken with htaken | ⟨rfl, rfl⟩
  · exact h m' t' htaken
  · exact ht

/-- A tick that sees `n` pending entries, five seconds after the last reading. -/
def tickAt (m : Monitor) (n : ℤ) : Tick :=
  ⟨m.pool.workerChannels.rows, m.clock + 5 * 1000000000, m.clock + 5 * 1000000000, .ok n⟩

theorem tickAt_fits (m : Monitor) (n : ℤ) : (tickAt m n).Fits m :=
  ⟨.refl _, le_add_of_nonneg_right (by decide), le_rfl⟩

/-- **The cooldown is respected in a run of ticks exactly if none of them misfires.** -/
theorem cooldown_iff (hv : cfg.Valid) (conv : IntConversion) (created now : Time)
    {ticks : List Tick} (hfits : FitsRun cfg conv (.start cfg created now) ticks) :
    ((Monitor.start cfg created now).run cfg conv ticks).changes.Pairwise (Change.Respects cfg) ↔
      ∀ m t, Taken (Monitor.tick cfg conv) (.start cfg created now) ticks m t →
        ¬ t.Misfires cfg m.pool :=
  (recorded_start hv created now).run_iff hv (start_pairwise cfg created now) hfits

/-- A burst five seconds after the start of the default configuration: the pool grows to its
maximum, and the cooldown is respected. -/
theorem cooldown_burst :
    ((Monitor.start defaultConfig 0 0).run defaultConfig amd64
      [tickAt (.start defaultConfig 0 0) 100]).changes.Pairwise (Change.Respects defaultConfig) ∧
    ((Monitor.start defaultConfig 0 0).run defaultConfig amd64
      [tickAt (.start defaultConfig 0 0) 100]).pool.activeWorkers = 10 := by
  have hv := defaultConfig_valid
  have hfits : FitsRun defaultConfig amd64 (.start defaultConfig 0 0)
      [tickAt (.start defaultConfig 0 0) 100] := fitsRun_nil.concat (tickAt_fits _ 100)
  refine ⟨(cooldown_iff hv amd64 0 0 hfits).mpr fun m t _ => not_misfires (by decide) (by decide),
    ?_⟩
  have hactive : (Monitor.start defaultConfig 0 0).pool.activeWorkers = 2 :=
    (scaleWorkers_scaledTo hv (books_new 0) .nil 0 2).active
  have hroom : (Monitor.start defaultConfig 0 0).pool.activeWorkers <
      defaultConfig.maxWorkerCount := hactive ▸ by decide
  change (monitorTick defaultConfig amd64 _ _ _ (.ok 100) _).activeWorkers = _
  rw [monitorTick_burst rfl (by decide) hroom]
  exact evaluateScaling_emergency hv (inOrder_monitorStart hv 0 0) (.refl _) (by decide) (by decide)
    hroom

/-- The cooldown is respected in every run if the product with five fits an `int64`. -/
theorem cooldown_of_small (hv : cfg.Valid) (h0 : 0 ≤ cfg.scaleUpThreshold)
    (h5 : cfg.scaleUpThreshold * 5 < 2 ^ 63) (conv : IntConversion) (created now : Time)
    {ticks : List Tick} (hfits : FitsRun cfg conv (.start cfg created now) ticks) :
    ((Monitor.start cfg created now).run cfg conv ticks).changes.Pairwise
      (Change.Respects cfg) :=
  ((recorded_start hv created now).run_iff hv (start_pairwise cfg created now) hfits).mpr
    fun _ _ _ => not_misfires h0 h5

/-- The default configuration with eight workers and a threshold whose product with five wraps. -/
def wrapConfig : Config :=
  { defaultConfig with initialWorkerCount := 8, scaleUpThreshold := 2 ^ 61 }

theorem wrapConfig_valid : wrapConfig.Valid :=
  ⟨defaultConfig_valid.one_le_min, defaultConfig_valid.min_le_max,
    defaultConfig_valid.one_lt_factor⟩

/-- A tick that sees no entry misfires. -/
theorem misfires_wrap {m : Monitor} (hlast : m.pool.lastScaleTime = m.clock)
    (hmin : 2 < m.pool.activeWorkers) (hmax : m.pool.activeWorkers < 10) :
    (tickAt m 0).Misfires wrapConfig m.pool := by
  refine ⟨rfl, ?_, hmin, hmax, 0, rfl, by decide, by decide, by decide⟩
  rw [hlast]
  change m.clock + 5 * 1000000000 - m.clock ≤ 15 * 1000000000
  rw [add_sub_cancel_left]
  decide

/-- Nothing is pending and the queue stays empty: the pool is shrunk twice within ten seconds. -/
theorem cooldown_not_respected : ¬ ∀ cfg conv created now ticks, Config.Valid cfg →
    0 ≤ cfg.scaleUpThreshold → FitsRun cfg conv (.start cfg created now) ticks →
    ((Monitor.start cfg created now).run cfg conv ticks).changes.Pairwise
      (Change.Respects cfg) := by
  intro hall
  have hv := wrapConfig_valid
  let m₀ := Monitor.start wrapConfig 0 0
  let m₁ := m₀.tick wrapConfig amd64 (tickAt m₀ 0)
  have hrec₀ : Recorded wrapConfig m₀ := recorded_start hv 0 0
  have hactive₀ : m₀.pool.activeWorkers = 8 :=
    (scaleWorkers_scaledTo hv (books_new 0) .nil 0 8).active
  have hm₀ : (tickAt m₀ 0).Misfires wrapConfig m₀.pool :=
    misfires_wrap (start_lastScaleTime hv 0 0) (by omega) (by omega)
  have hrec₁ : Recorded wrapConfig m₁ := hrec₀.tick hv (tickAt_fits m₀ 0)
  have hdown : downTarget wrapConfig amd64 8 = 4 := by decide +kernel
  have hactive₁ : m₁.pool.activeWorkers = 4 := by
    have heq : m₁.pool = _ := hm₀.tick_eq
    rw [heq, hactive₀, hdown]
    exact (scaleWorkers_scaledTo hv hrec₀.inOrder.books (.refl _) _ 4).active
  have hne : m₁.pool.activeWorkers ≠ m₀.pool.activeWorkers := by
    rw [hactive₁, hactive₀]
    decide
  have hm₁ : (tickAt m₁ 0).Misfires wrapConfig m₁.pool :=
    misfires_wrap (tick_lastScaleTime hne) (by omega) (by omega)
  have hfits := (fitsRun_nil.concat (tickAt_fits m₀ 0)).concat (tickAt_fits m₁ 0)
  have hpair := hall wrapConfig amd64 0 0 _ hv (by decide) hfits
  exact (hrec₁.respects_iff hv (tickAt_fits m₁ 0)).mp (List.pairwise_append.mp hpair).2.2 hm₁

end Runs

end Worker

end BatRewind
