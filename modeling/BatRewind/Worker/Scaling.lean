import Mathlib.Data.Rat.Floor
import BatRewind.Lib.Table
import BatRewind.Session.Model

/-!
# The worker pool

`scaleWorkers`, `scaleUp`, `scaleDown` and `evaluateScaling` of `internal/worker/service.go`. The
map `workerChannels` is a table from worker ids to stop channels; its iteration order is a parameter
of every call. `started` and `signals` record the workers started and the channels that were sent a
stop signal; no function reads them. Worker ids are unbounded integers (`ids_lt` bounds them by the
number of calls), and `WorkerScaleFactor` is an exact rational.

* `Books`: the counter, the map and the running workers agree.
* `startWorkers_books`, `stopWorkers_books`: what the two loops do; **`scaleWorkers_scaledTo`**.
* **`pool_bookkeeping`**: the books are in order after every sequence of calls, and
  `evaluateScaling` grows and shrinks the pool exactly as the thresholds say.
-/

namespace BatRewind

open Tables

namespace Worker

/-! ## The code -/

/-- The configuration of the pool. The counts are of type `int`. -/
structure Config where
  initialWorkerCount : ℤ
  minWorkerCount : ℤ
  maxWorkerCount : ℤ
  enableAutoscaling : Bool
  scaleUpThreshold : ℤ
  scaleDownThreshold : ℤ
  workerScaleFactor : ℚ
  cooldownPeriod : Time
  max_lt : maxWorkerCount < 2 ^ 63

/-- `DefaultConfig`. -/
def defaultConfig : Config where
  initialWorkerCount := 2
  minWorkerCount := 2
  maxWorkerCount := 10
  enableAutoscaling := true
  scaleUpThreshold := 15
  scaleDownThreshold := 5
  workerScaleFactor := 2
  cooldownPeriod := 15 * 1000000000
  max_lt := by decide

/-- The counts and the factor are sensible. -/
structure Config.Valid (cfg : Config) : Prop where
  one_le_min : 1 ≤ cfg.minWorkerCount
  min_le_max : cfg.minWorkerCount ≤ cfg.maxWorkerCount
  one_lt_factor : 1 < cfg.workerScaleFactor

/-- `int` of a float that holds an integer: the language leaves open what happens out of range. -/
structure IntConversion where
  convert : ℤ → ℤ
  exact : ∀ z, -2 ^ 63 ≤ z → z < 2 ^ 63 → convert z = z

/-- The value of an `int64` multiplication. -/
def int64 (z : ℤ) : ℤ := z.bmod (2 ^ 64)

/-- A worker: its id and the channel on which it waits for its stop signal. -/
structure Handle where
  id : ℤ
  stop : ℕ
deriving DecidableEq

/-- **The pool**, with the workers started and the channels signalled so far. -/
structure WorkerPool where
  activeWorkers : ℤ
  workerChannels : Table Handle.id
  lastScaleTime : Time
  started : List Handle
  signals : List ℕ

/-- `New`. -/
def WorkerPool.new (now : Time) : WorkerPool := ⟨0, .empty, now, [], []⟩

/-- The loop of `scaleUp` over the map: an id above all of its keys. -/
def nextID (order : List Handle) : ℤ :=
  order.foldl (fun next w => if w.id ≥ next then w.id + 1 else next) 0

namespace WorkerPool

/-- Make a channel and start a worker with it. -/
def startWorker (p : WorkerPool) (id : ℤ) : WorkerPool :=
  let w : Handle := ⟨id, p.started.length⟩
  { p with
    activeWorkers := p.activeWorkers + 1
    workerChannels := p.workerChannels.put w
    started := p.started ++ [w] }

/-- The loop of `scaleUp` that starts workers. -/
def startWorkers (target : ℤ) (p : WorkerPool) (nextID : ℤ) : WorkerPool :=
  if p.activeWorkers < target then startWorkers target (p.startWorker nextID) (nextID + 1) else p
termination_by (target - p.activeWorkers).toNat
decreasing_by
  change (target - (p.activeWorkers + 1)).toNat < (target - p.activeWorkers).toNat
  omega

def scaleUp (order : List Handle) (now : Time) (target : ℤ) (p : WorkerPool) : WorkerPool :=
  { p.startWorkers target (nextID order) with lastScaleTime := now }

/-- Signal a worker to stop, close its channel and forget it. -/
def stopWorker (p : WorkerPool) (w : Handle) : WorkerPool :=
  { p with
    activeWorkers := p.activeWorkers - 1
    workerChannels := p.workerChannels.delete fun x => x.id = w.id
    signals := p.signals ++ [w.stop] }

/-- The loop of `scaleDown` over the map. -/
def stopWorkers : List Handle → ℤ → WorkerPool → WorkerPool
  | [], _, p => p
  | w :: rest, toStop, p =>
    if toStop = 0 then p else stopWorkers rest (toStop - 1) (p.stopWorker w)

def scaleDown (cfg : Config) (order : List Handle) (now : Time) (target : ℤ) (p : WorkerPool) :
    WorkerPool :=
  if p.activeWorkers ≤ cfg.minWorkerCount then p
  else { stopWorkers order (p.activeWorkers - target) p with lastScaleTime := now }

/-- **Bring the pool to `target` workers**, within the bounds of the configuration. -/
def scaleWorkers (cfg : Config) (order : List Handle) (now : Time) (target : ℤ) (p : WorkerPool) :
    WorkerPool :=
  let target := if target < cfg.minWorkerCount then cfg.minWorkerCount else target
  let target := if target > cfg.maxWorkerCount then cfg.maxWorkerCount else target
  if target = p.activeWorkers then p
  else if target > p.activeWorkers then scaleUp order now target p
  else scaleDown cfg order now target p

/-- The target of `evaluateScaling` when it scales up. -/
def upTarget (cfg : Config) (conv : IntConversion) (pending active : ℤ) : ℤ :=
  let target :=
    if pending > int64 (cfg.scaleUpThreshold * 5) then cfg.maxWorkerCount
    else if pending > int64 (cfg.scaleUpThreshold * 3) then
      conv.convert ⌈(active : ℚ) * cfg.workerScaleFactor * (3 / 2)⌉
    else conv.convert ⌈(active : ℚ) * cfg.workerScaleFactor⌉
  if target ≤ active then active + 1 else target

/-- The target of `evaluateScaling` when it scales down. -/
def downTarget (cfg : Config) (conv : IntConversion) (active : ℤ) : ℤ :=
  let target := conv.convert ⌊(active : ℚ) / cfg.workerScaleFactor⌋
  if target < cfg.minWorkerCount then cfg.minWorkerCount else target

/-- **Scale by the number of pending messages.** -/
def evaluateScaling (cfg : Config) (conv : IntConversion) (order : List Handle) (now : Time)
    (pending : ℤ) (p : WorkerPool) : WorkerPool :=
  if pending > cfg.scaleUpThreshold ∧ p.activeWorkers < cfg.maxWorkerCount then
    scaleWorkers cfg order now (upTarget cfg conv pending p.activeWorkers) p
  else if pending < cfg.scaleDownThreshold ∧ p.activeWorkers > cfg.minWorkerCount then
    scaleWorkers cfg order now (downTarget cfg conv p.activeWorkers) p
  else p

end WorkerPool

/-- A call that may change the pool. -/
inductive ScaleCall where
  | evaluateScaling (pending : ℤ)
  | scaleWorkers (target : ℤ)

/-- A call, with the iteration order of the map and the clock reading it meets. -/
def ScaleCall.run (cfg : Config) (conv : IntConversion) (order : List Handle) (now : Time) :
    ScaleCall → WorkerPool → WorkerPool
  | .evaluateScaling pending => WorkerPool.evaluateScaling cfg conv order now pending
  | .scaleWorkers target => WorkerPool.scaleWorkers cfg order now target

/-- One call, with any iteration order. -/
def Scales (cfg : Config) (conv : IntConversion) (c : ScaleCall) (p p' : WorkerPool) : Prop :=
  ∃ order now, order.Perm p.workerChannels.rows ∧ p' = c.run cfg conv order now p

/-- Calls one after another. -/
def ScaleRuns (cfg : Config) (conv : IntConversion) :
    List ScaleCall → WorkerPool → WorkerPool → Prop
  | [], p, p' => p' = p
  | c :: calls, p, p' => ∃ p₁, Scales cfg conv c p p₁ ∧ ScaleRuns cfg conv calls p₁ p'

/-! ## The books -/

namespace WorkerPool

/-- The workers started and not yet told to stop. -/
def running (p : WorkerPool) : List Handle := p.started.filter fun w => w.stop ∉ p.signals

/-- **The counter, the map and the running workers agree**, and no worker is sent a second stop
signal. -/
structure Books (p : WorkerPool) : Prop where
  active_eq : p.activeWorkers = p.workerChannels.rows.length
  running_perm : p.workerChannels.rows.Perm p.running
  signals_nodup : p.signals.Nodup
  serial : p.started.map Handle.stop = List.range p.started.length
  signals_lt : ∀ c ∈ p.signals, c < p.started.length

theorem books_new (now : Time) : (new now).Books :=
  ⟨rfl, List.Perm.nil, List.nodup_nil, rfl, by simp [new]⟩

theorem Books.at_time {p : WorkerPool} (h : p.Books) (now : Time) :
    { p with lastScaleTime := now }.Books :=
  ⟨h.active_eq, h.running_perm, h.signals_nodup, h.serial, h.signals_lt⟩

section Loops

variable {p : WorkerPool} {id : ℤ}

theorem rows_startWorker (hid : id ∉ p.workerChannels.keys) :
    (p.startWorker id).workerChannels.rows =
      p.workerChannels.rows ++ [⟨id, p.started.length⟩] :=
  Table.rows_put_of_notMem hid

/-- A worker that takes the id of no entry of the map. -/
theorem Books.startWorker (h : p.Books) (hid : id ∉ p.workerChannels.keys) :
    (p.startWorker id).Books := by
  have hnew : p.started.length ∉ p.signals := fun hmem => lt_irrefl _ (h.signals_lt _ hmem)
  refine ⟨?_, ?_, h.signals_nodup, ?_, fun c hc => ?_⟩
  · rw [rows_startWorker hid, List.length_append, List.length_singleton]
    change p.activeWorkers + 1 = _
    rw [h.active_eq]
    push_cast
    rfl
  · have hrun : (p.startWorker id).running = p.running ++ [⟨id, p.started.length⟩] := by
      unfold running WorkerPool.startWorker
      rw [List.filter_append, List.filter_singleton]
      simp [hnew]
    rw [rows_startWorker hid, hrun]
    exact h.running_perm.append_right _
  · simp [WorkerPool.startWorker, h.serial, List.range_succ]
  · have := h.signals_lt c hc
    simp only [WorkerPool.startWorker, List.length_append, List.length_singleton]
    omega

/-- The loop of `scaleUp`, from an id above all keys of the map. -/
theorem startWorkers_books (target : ℤ) (h : p.Books) (hid : ∀ k ∈ p.workerChannels.keys, k < id) :
    (p.startWorkers target id).Books ∧
      (p.startWorkers target id).activeWorkers = max p.activeWorkers target ∧
      ∃ new, (p.startWorkers target id).started = p.started ++ new ∧
        (p.workerChannels.keys ++ new.map Handle.id).Nodup ∧
        new.length = (target - p.activeWorkers).toNat ∧
        ∀ w ∈ new, w.id < id + (target - p.activeWorkers).toNat := by
  fun_induction startWorkers target p id with
  | case1 p id hlt ih =>
    have hfresh : id ∉ p.workerChannels.keys := fun hmem => lt_irrefl _ (hid id hmem)
    have hkeys : (p.startWorker id).workerChannels.keys = p.workerChannels.keys ++ [id] := by
      rw [Table.keys, rows_startWorker hfresh, List.map_append]
      rfl
    have hone : (p.startWorker id).activeWorkers = p.activeWorkers + 1 := rfl
    obtain ⟨hbooks, hactive, new, hstarted, hnd, hlen, hlt'⟩ := ih (h.startWorker hfresh) (by
      intro k hk
      rw [hkeys, List.mem_append, List.mem_singleton] at hk
      rcases hk with hk | rfl
      · have := hid k hk
        omega
      · omega)
    rw [hone] at hactive hlen hlt'
    refine ⟨hbooks, ?_, ⟨id, p.started.length⟩ :: new, ?_, ?_, ?_, ?_⟩
    · omega
    · rw [hstarted]
      simp [WorkerPool.startWorker]
    · rw [hkeys, List.append_assoc] at hnd
      exact hnd
    · rw [List.length_cons]
      omega
    · intro w hw
      rcases List.mem_cons.mp hw with rfl | hw
      · change id < _
        omega
      · have := hlt' w hw
        omega
  | case2 p id hle =>
    refine ⟨h, by omega, [], by simp, ?_, ?_, by simp⟩
    · rw [List.map_nil, List.append_nil]
      exact p.workerChannels.nodup
    · rw [List.length_nil]
      omega

/-- The map without one of its entries. -/
theorem Books.stopWorker (h : p.Books) {w : Handle} (hw : w ∈ p.workerChannels.rows) :
    (p.stopWorker w).Books ∧
      (p.stopWorker w).workerChannels.rows = p.workerChannels.rows.erase w := by
  have hnd : p.workerChannels.rows.Nodup := List.Nodup.of_map _ p.workerChannels.nodup
  have hrows : (p.stopWorker w).workerChannels.rows = p.workerChannels.rows.erase w := by
    rw [hnd.erase_eq_filter]
    refine List.filter_congr fun x hx => ?_
    by_cases hxw : x = w
    · simp [hxw]
    · have hne : x.id ≠ w.id := fun he => hxw (p.workerChannels.eq_of_key_eq hx hw he)
      simp [hxw, hne]
  obtain ⟨hstarted, hsig⟩ := List.mem_filter.mp (h.running_perm.mem_iff.mp hw)
  have hsig : w.stop ∉ p.signals := by simpa using hsig
  have hstops : (p.started.map Handle.stop).Nodup := h.serial ▸ List.nodup_range
  refine ⟨⟨?_, ?_, ?_, h.serial, ?_⟩, hrows⟩
  · have hpos := List.length_pos_of_mem hw
    rw [hrows, List.length_erase_of_mem hw]
    change p.activeWorkers - 1 = _
    rw [h.active_eq]
    omega
  · have hrun : (p.stopWorker w).running = p.running.erase w := by
      have hnd' : p.running.Nodup := h.running_perm.nodup_iff.mp hnd
      rw [hnd'.erase_eq_filter, running, running, List.filter_filter]
      refine List.filter_congr fun x hx => ?_
      have hstop : x.stop = w.stop ↔ x = w :=
        ⟨fun he => List.inj_on_of_nodup_map hstops hx hstarted he, fun he => he ▸ rfl⟩
      by_cases hxw : x = w
      · simp [WorkerPool.stopWorker, hxw]
      · simp [WorkerPool.stopWorker, hstop, hxw]
    rw [hrows, hrun]
    exact h.running_perm.erase w
  · rw [WorkerPool.stopWorker, List.nodup_append]
    refine ⟨h.signals_nodup, List.nodup_singleton _, fun a ha b hb => ?_⟩
    rw [List.mem_singleton] at hb
    rintro rfl
    exact hsig (hb ▸ ha)
  · intro c hc
    rw [WorkerPool.stopWorker, List.mem_append, List.mem_singleton] at hc
    rcases hc with hc | rfl
    · exact h.signals_lt c hc
    · have : w.stop ∈ List.range p.started.length := h.serial ▸ List.mem_map_of_mem hstarted
      exact List.mem_range.mp this

/-- The loop of `scaleDown`, over entries of the map that are left to visit. -/
theorem stopWorkers_books {order : List Handle} (toStop : ℤ) (h : p.Books)
    (hnd : order.Nodup) (hsub : ∀ w ∈ order, w ∈ p.workerChannels.rows) (h0 : 0 ≤ toStop)
    (hle : toStop ≤ order.length) :
    (stopWorkers order toStop p).Books ∧
      (stopWorkers order toStop p).activeWorkers = p.activeWorkers - toStop ∧
      (stopWorkers order toStop p).started = p.started := by
  induction order generalizing p toStop with
  | nil =>
    simp only [List.length_nil] at hle
    exact ⟨h, by rw [stopWorkers]; omega, rfl⟩
  | cons w rest ih =>
    rw [stopWorkers]
    split_ifs with hz
    · exact ⟨h, by omega, rfl⟩
    obtain ⟨hbooks, hrows⟩ := h.stopWorker (hsub w List.mem_cons_self)
    obtain ⟨hw, hrest⟩ := List.nodup_cons.mp hnd
    have hsub' : ∀ x ∈ rest, x ∈ (p.stopWorker w).workerChannels.rows := by
      intro x hx
      have hne : x ≠ w := fun he => hw (he ▸ hx)
      rw [hrows]
      exact (List.mem_erase_of_ne hne).mpr (hsub x (List.mem_cons_of_mem _ hx))
    rw [List.length_cons] at hle
    obtain ⟨hb, ha, hs⟩ := ih (toStop - 1) hbooks hrest hsub' (by omega) (by omega)
    refine ⟨hb, ?_, hs⟩
    rw [ha]
    change p.activeWorkers - 1 - (toStop - 1) = _
    omega

/-- The id that `scaleUp` starts with is above every key of the map. -/
theorem lt_nextID {order : List Handle} {w : Handle} (hw : w ∈ order) : w.id < nextID order := by
  have key : ∀ (l : List Handle) (n : ℤ),
      n ≤ l.foldl (fun next w => if w.id ≥ next then w.id + 1 else next) n ∧
      ∀ x ∈ l, x.id < l.foldl (fun next w => if w.id ≥ next then w.id + 1 else next) n := by
    intro l
    induction l with
    | nil => simp
    | cons y l ih =>
      intro n
      simp only [List.foldl_cons, List.mem_cons]
      obtain ⟨h₁, h₂⟩ := ih (if y.id ≥ n then y.id + 1 else n)
      refine ⟨by split_ifs at h₁ ⊢ <;> omega, fun x hx => ?_⟩
      rcases hx with rfl | hx
      · split_ifs at h₁ ⊢ <;> omega
      · exact h₂ x hx
  exact (key order 0).2 w hw

end Loops

theorem nextID_le {order : List Handle} {n : ℤ} (h0 : 0 ≤ n) (h : ∀ w ∈ order, w.id < n) :
    nextID order ≤ n := by
  have key : ∀ (l : List Handle) (m : ℤ), m ≤ n → (∀ w ∈ l, w.id < n) →
      l.foldl (fun next w => if w.id ≥ next then w.id + 1 else next) m ≤ n := by
    intro l
    induction l with
    | nil => exact fun _ hm _ => hm
    | cons y l ih =>
      intro m hm hl
      have hy := hl y List.mem_cons_self
      refine ih _ ?_ fun w hw => hl w (List.mem_cons_of_mem _ hw)
      dsimp only
      split_ifs <;> omega
  exact key order 0 h0 h

/-! ## Calls -/

section Calls

variable {cfg : Config} {conv : IntConversion} {order : List Handle} {now : Time}
  {p p' : WorkerPool}

/-- What a call does to a pool whose books are in order: it brings the pool to `goal` workers. -/
structure ScaledTo (goal : ℤ) (p p' : WorkerPool) : Prop where
  books : p'.Books
  active : p'.activeWorkers = goal
  same : goal = p.activeWorkers → p' = p
  count : (p'.started.length : ℤ) = p.started.length + max 0 (goal - p.activeWorkers)
  fresh : ∃ new, p'.started = p.started ++ new ∧
    (p.workerChannels.keys ++ new.map Handle.id).Nodup ∧
    ∀ n, 0 ≤ n → (∀ w ∈ p.workerChannels.rows, w.id < n) → ∀ w ∈ new, w.id < n + max 0 goal

theorem ScaledTo.refl (h : p.Books) : ScaledTo p.activeWorkers p p := by
  refine ⟨h, rfl, fun _ => rfl, by omega, [], by simp, ?_, by simp⟩
  rw [List.map_nil, List.append_nil]
  exact p.workerChannels.nodup

theorem scaleUp_scaledTo {target : ℤ} (h : p.Books) (hp : order.Perm p.workerChannels.rows)
    (hlt : p.activeWorkers < target) : ScaledTo target p (scaleUp order now target p) := by
  have hid : ∀ k ∈ p.workerChannels.keys, k < nextID order := by
    intro k hk
    obtain ⟨w, hw, rfl⟩ := Table.mem_keys.mp hk
    exact lt_nextID (hp.mem_iff.mpr hw)
  obtain ⟨hb, ha, new, hs, hnd, hlen, hids⟩ := startWorkers_books target h hid
  refine ⟨hb.at_time now, ?_, fun he => by omega, ?_, new, hs, hnd, fun n h0 hn w hw => ?_⟩
  · change (p.startWorkers target (nextID order)).activeWorkers = target
    omega
  · change ((p.startWorkers target (nextID order)).started.length : ℤ) = _
    rw [hs, List.length_append, hlen]
    omega
  · have hnext := nextID_le h0 fun x hx => hn x (hp.mem_iff.mp hx)
    have hw := hids w hw
    have hactive := h.active_eq
    omega

theorem scaleDown_scaledTo {target : ℤ} (h : p.Books) (hp : order.Perm p.workerChannels.rows)
    (hmin : cfg.minWorkerCount ≤ target) (h0 : 0 ≤ target) (hlt : target < p.activeWorkers) :
    ScaledTo target p (scaleDown cfg order now target p) := by
  have hnd : order.Nodup := hp.nodup_iff.mpr (List.Nodup.of_map _ p.workerChannels.nodup)
  obtain ⟨hb, ha, hs⟩ := stopWorkers_books (p.activeWorkers - target) h hnd
    (fun w hw => hp.mem_iff.mp hw) (by omega) (by rw [hp.length_eq, ← h.active_eq]; omega)
  rw [scaleDown, if_neg (by omega)]
  refine ⟨hb.at_time now, ?_, fun he => by omega, ?_, [], ?_, ?_, by simp⟩
  · change (stopWorkers order (p.activeWorkers - target) p).activeWorkers = target
    omega
  · change ((stopWorkers order (p.activeWorkers - target) p).started.length : ℤ) = _
    rw [hs]
    omega
  · rw [List.append_nil]
    exact hs
  · rw [List.map_nil, List.append_nil]
    exact p.workerChannels.nodup

/-- **`scaleWorkers` brings the pool to the target**, within the bounds of the configuration. -/
theorem scaleWorkers_scaledTo (hv : cfg.Valid) (h : p.Books)
    (hp : order.Perm p.workerChannels.rows) (now : Time) (target : ℤ) :
    ScaledTo (min cfg.maxWorkerCount (max cfg.minWorkerCount target)) p
      (scaleWorkers cfg order now target p) := by
  have h₁ := hv.one_le_min
  have h₂ := hv.min_le_max
  have hgoal : (if (if target < cfg.minWorkerCount then cfg.minWorkerCount else target) >
      cfg.maxWorkerCount then cfg.maxWorkerCount
      else if target < cfg.minWorkerCount then cfg.minWorkerCount else target) =
        min cfg.maxWorkerCount (max cfg.minWorkerCount target) := by
    split_ifs <;> omega
  unfold scaleWorkers
  simp only [hgoal]
  split_ifs with heq hup
  · rw [heq]
    exact .refl h
  · exact scaleUp_scaledTo h hp hup
  · exact scaleDown_scaledTo h hp (by omega) (by omega) (by omega)

theorem lt_upTarget (cfg : Config) (conv : IntConversion) (pending active : ℤ) :
    active < upTarget cfg conv pending active := by
  unfold upTarget
  dsimp only
  generalize (if pending > int64 (cfg.scaleUpThreshold * 5) then cfg.maxWorkerCount
    else if pending > int64 (cfg.scaleUpThreshold * 3) then
      conv.convert ⌈(active : ℚ) * cfg.workerScaleFactor * (3 / 2)⌉
    else conv.convert ⌈(active : ℚ) * cfg.workerScaleFactor⌉) = target
  split_ifs <;> omega

/-- A division by a factor above one, rounded down, makes a positive number smaller. -/
theorem downTarget_lt (hv : cfg.Valid) (conv : IntConversion) {active : ℤ}
    (hmin : cfg.minWorkerCount < active) (hmax : active ≤ cfg.maxWorkerCount) :
    downTarget cfg conv active < active := by
  have h₁ := hv.one_le_min
  have hlim := cfg.max_lt
  have hpos : (0 : ℚ) < active := by exact_mod_cast (by omega : (0 : ℤ) < active)
  have hlow : 0 ≤ ⌊(active : ℚ) / cfg.workerScaleFactor⌋ :=
    Int.floor_nonneg.mpr (div_nonneg hpos.le (zero_lt_one.trans hv.one_lt_factor).le)
  have hhigh : ⌊(active : ℚ) / cfg.workerScaleFactor⌋ < active :=
    Int.floor_lt.mpr (div_lt_self hpos hv.one_lt_factor)
  unfold downTarget
  rw [conv.exact _ (by omega) (by omega)]
  dsimp only
  split_ifs <;> omega

/-- How many workers a call of `evaluateScaling` aims at. -/
theorem evaluateScaling_scaledTo (hv : cfg.Valid) (h : p.Books)
    (hp : order.Perm p.workerChannels.rows) (hmin : cfg.minWorkerCount ≤ p.activeWorkers)
    (hmax : p.activeWorkers ≤ cfg.maxWorkerCount) (conv : IntConversion) (now : Time)
    (pending : ℤ) :
    ∃ goal, ScaledTo goal p (evaluateScaling cfg conv order now pending p) ∧
      cfg.minWorkerCount ≤ goal ∧ goal ≤ cfg.maxWorkerCount ∧
      if pending > cfg.scaleUpThreshold ∧ p.activeWorkers < cfg.maxWorkerCount then
        p.activeWorkers < goal
      else if pending < cfg.scaleDownThreshold ∧ p.activeWorkers > cfg.minWorkerCount then
        goal < p.activeWorkers
      else goal = p.activeWorkers := by
  have h₁ := hv.min_le_max
  unfold evaluateScaling
  split_ifs with hup hdown
  · have hlt := lt_upTarget cfg conv pending p.activeWorkers
    exact ⟨_, scaleWorkers_scaledTo hv h hp now _, by omega, by omega, by omega⟩
  · have hlt := downTarget_lt hv conv hdown.2 hmax
    exact ⟨_, scaleWorkers_scaledTo hv h hp now _, by omega, by omega, by omega⟩
  · exact ⟨_, .refl h, hmin, hmax, rfl⟩

end Calls

end WorkerPool

/-! ## Runs -/

section Runs

open WorkerPool

variable {cfg : Config} {conv : IntConversion} {p p' : WorkerPool}

/-- The books are in order and the number of workers is within its bounds. -/
structure InOrder (cfg : Config) (p : WorkerPool) : Prop where
  books : p.Books
  min_le : cfg.minWorkerCount ≤ p.activeWorkers
  le_max : p.activeWorkers ≤ cfg.maxWorkerCount

/-- A call to the pool of a running service. -/
theorem InOrder.scales (hv : cfg.Valid) (h : InOrder cfg p) {c : ScaleCall}
    (hc : Scales cfg conv c p p') :
    ∃ goal, ScaledTo goal p p' ∧ cfg.minWorkerCount ≤ goal ∧ goal ≤ cfg.maxWorkerCount := by
  obtain ⟨order, now, hp, rfl⟩ := hc
  have h₁ := hv.min_le_max
  cases c with
  | evaluateScaling pending =>
    obtain ⟨goal, hgoal, hmin, hmax, -⟩ :=
      evaluateScaling_scaledTo hv h.books hp h.min_le h.le_max conv now pending
    exact ⟨goal, hgoal, hmin, hmax⟩
  | scaleWorkers target =>
    exact ⟨_, scaleWorkers_scaledTo hv h.books hp now target, by omega, by omega⟩

theorem InOrder.call (hv : cfg.Valid) (h : InOrder cfg p) {c : ScaleCall}
    (hc : Scales cfg conv c p p') : InOrder cfg p' := by
  obtain ⟨goal, hgoal, hmin, hmax⟩ := h.scales hv hc
  exact ⟨hgoal.books, hgoal.active ▸ hmin, hgoal.active ▸ hmax⟩

theorem InOrder.runs (hv : cfg.Valid) (h : InOrder cfg p) {calls : List ScaleCall}
    (hr : ScaleRuns cfg conv calls p p') : InOrder cfg p' := by
  induction calls generalizing p with
  | nil => exact hr ▸ h
  | cons c calls ih =>
    obtain ⟨p₁, hc, hr⟩ := hr
    exact ih (h.call hv hc) hr

/-- After the first call of `Start`. -/
theorem inOrder_start (hv : cfg.Valid) {now : Time} {target : ℤ}
    (h : Scales cfg conv (.scaleWorkers target) (.new now) p) : InOrder cfg p := by
  obtain ⟨order, now', hp, rfl⟩ := h
  have h₁ := hv.min_le_max
  have hscaled := scaleWorkers_scaledTo hv (books_new now) hp now' target
  refine ⟨hscaled.books, ?_, ?_⟩
  · exact hscaled.active.symm ▸ (by omega)
  · exact hscaled.active.symm ▸ (by omega)

/-- A call adds at most `MaxWorkerCount` to a bound of the worker ids, as the ids of live workers are
below it. -/
theorem WorkerPool.ScaledTo.ids_lt {goal n : ℤ} (h : ScaledTo goal p p') (hb : p.Books)
    (hgoal : goal ≤ cfg.maxWorkerCount) (h₀ : 0 ≤ cfg.maxWorkerCount) (hn : 0 ≤ n)
    (hids : ∀ w ∈ p.started, w.id < n) : ∀ w ∈ p'.started, w.id < n + cfg.maxWorkerCount := by
  obtain ⟨new, hs, -, hfresh⟩ := h.fresh
  intro w hw
  rw [hs, List.mem_append] at hw
  rcases hw with hw | hw
  · have hold := hids w hw
    omega
  · have hlive : ∀ x ∈ p.workerChannels.rows, x.id < n := fun x hx =>
      hids x (List.mem_of_mem_filter (hb.running_perm.mem_iff.mp hx))
    have hnew := hfresh n hn hlive w hw
    omega

theorem InOrder.ids_lt (hv : cfg.Valid) (h : InOrder cfg p) {n : ℤ} (hn : 0 ≤ n)
    (hids : ∀ w ∈ p.started, w.id < n) {calls : List ScaleCall}
    (hr : ScaleRuns cfg conv calls p p') :
    ∀ w ∈ p'.started, w.id < n + calls.length * cfg.maxWorkerCount := by
  have h₀ : 0 ≤ cfg.maxWorkerCount := by
    have hmin := hv.one_le_min
    have hmax := hv.min_le_max
    omega
  induction calls generalizing p n with
  | nil =>
    obtain rfl := hr
    simpa using hids
  | cons c calls ih =>
    obtain ⟨p₁, hc, hr⟩ := hr
    obtain ⟨goal, hgoal, -, hhigh⟩ := h.scales hv hc
    intro w hw
    have hlt := ih (h.call hv hc) (by omega) (hgoal.ids_lt h.books hhigh h₀ hn hids) hr w hw
    rw [List.length_cons]
    push_cast
    linarith

/-- **Worker ids stay small**: below the number of calls times `MaxWorkerCount`. -/
theorem ids_lt (hv : cfg.Valid) {now : Time} {target : ℤ} {calls : List ScaleCall}
    (hr : ScaleRuns cfg conv (.scaleWorkers target :: calls) (.new now) p) :
    ∀ w ∈ p.started, w.id < (calls.length + 1) * cfg.maxWorkerCount := by
  obtain ⟨p₁, hstart, hr⟩ := hr
  have hp₁ : InOrder cfg p₁ := inOrder_start hv hstart
  have h₀ : 0 ≤ cfg.maxWorkerCount := by
    have hmin := hv.one_le_min
    have hmax := hv.min_le_max
    omega
  have hmin := hv.min_le_max
  obtain ⟨order, now', hp, rfl⟩ := hstart
  have hfirst := (scaleWorkers_scaledTo hv (books_new now) hp now' target).ids_lt (books_new now)
    (by omega) h₀ le_rfl (by simp [new])
  intro w hw
  have hlt := hp₁.ids_lt hv (by omega) hfirst hr w hw
  linarith

/-- **The books of the pool.** After the first call of `Start` and any calls after it: the counter
is the number of entries and within its bounds, the entries are the running workers, no worker is
signalled twice, no call starts a worker under the id of a live entry, and `evaluateScaling` grows
the pool above the upper threshold, shrinks it below the lower one and else leaves it alone. -/
theorem pool_bookkeeping (hv : cfg.Valid) {now : Time} {calls : List ScaleCall}
    (hr : ScaleRuns cfg conv (.scaleWorkers cfg.initialWorkerCount :: calls) (.new now) p) :
    p.Books ∧ cfg.minWorkerCount ≤ p.activeWorkers ∧ p.activeWorkers ≤ cfg.maxWorkerCount ∧
      (∀ c p', Scales cfg conv c p p' → ∃ new, p'.started = p.started ++ new ∧
        (p.workerChannels.keys ++ new.map Handle.id).Nodup) ∧
      ∀ pending p', Scales cfg conv (.evaluateScaling pending) p p' →
        if pending > cfg.scaleUpThreshold ∧ p.activeWorkers < cfg.maxWorkerCount then
          p.activeWorkers < p'.activeWorkers
        else if pending < cfg.scaleDownThreshold ∧ p.activeWorkers > cfg.minWorkerCount then
          p'.activeWorkers < p.activeWorkers
        else p' = p := by
  obtain ⟨p₁, hstart, hr⟩ := hr
  have h : InOrder cfg p := (inOrder_start hv hstart).runs hv hr
  refine ⟨h.books, h.min_le, h.le_max, fun c p' hc => ?_, fun pending p' hc => ?_⟩
  · obtain ⟨goal, hgoal, -, -⟩ := h.scales hv hc
    obtain ⟨new, hs, hnd, -⟩ := hgoal.fresh
    exact ⟨new, hs, hnd⟩
  · obtain ⟨order, now', hp, rfl⟩ := hc
    obtain ⟨goal, hgoal, -, -, hcases⟩ :=
      evaluateScaling_scaledTo hv h.books hp h.min_le h.le_max conv now' pending
    change if _ then _ < (evaluateScaling cfg conv order now' pending p).activeWorkers
      else if _ then (evaluateScaling cfg conv order now' pending p).activeWorkers < _ else _
    split_ifs at hcases ⊢
    · exact hgoal.active.symm ▸ hcases
    · exact hgoal.active.symm ▸ hcases
    · exact hgoal.same hcases

theorem defaultConfig_valid : defaultConfig.Valid := by
  refine ⟨by decide, by decide, ?_⟩
  norm_num [defaultConfig]

/-- The conversion of `amd64`: out of range it gives the least integer. -/
def amd64 : IntConversion where
  convert z := if -2 ^ 63 ≤ z ∧ z < 2 ^ 63 then z else -2 ^ 63
  exact _ h₁ h₂ := if_pos ⟨h₁, h₂⟩

/-- Two workers of the default configuration and one more pending message than the threshold. -/
theorem pool_bookkeeping_default : ∃ p p',
    ScaleRuns defaultConfig amd64 [.scaleWorkers 2] (.new 0) p ∧
    Scales defaultConfig amd64 (.evaluateScaling 16) p p' ∧ p.activeWorkers = 2 ∧
    p.activeWorkers < p'.activeWorkers := by
  obtain ⟨p, hp⟩ : ∃ p, Scales defaultConfig amd64 (.scaleWorkers 2) (.new 0) p :=
    ⟨_, [], 0, .nil, rfl⟩
  have hruns : ScaleRuns defaultConfig amd64 [.scaleWorkers 2] (.new 0) p := ⟨p, hp, rfl⟩
  have hactive : p.activeWorkers = 2 := by
    obtain ⟨order, now, hperm, rfl⟩ := hp
    exact (scaleWorkers_scaledTo defaultConfig_valid (books_new 0) hperm now 2).active
  have h := (pool_bookkeeping defaultConfig_valid hruns).2.2.2.2 16 _
    ⟨p.workerChannels.rows, 0, .refl _, rfl⟩
  rw [if_pos (by rw [hactive]; decide)] at h
  exact ⟨p, _, hruns, ⟨_, 0, .refl _, rfl⟩, hactive, h⟩

end Runs

end Worker

end BatRewind
