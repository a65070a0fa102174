import BatRewind.Dashboard.Timeline

/-!
# What the timeline says about the past

`buildTimeline` reads the nodes of all events before it names the nodes of any. The items of the
first events are compared with those that the first events alone have.

* `pushItems_append`, `eventIndex_of_pushItems`: the items of a list of events and their positions.
* **`itemOf_eq_iff`**, **`pushItems_eq_iff`**: when two indexes give the same items.
* `indexNodes_append`: the nodes of a continuation stand over those of the first events.
* `Readable`: no event makes the code throw; `LastNode`, `description`: the nodes under an id.
* **`timeline_causal_iff`**: later events leave the items of the first events alone exactly if they
  do not change whether the events can be read, and no later node under a named id is described
  otherwise.
-/

namespace BatRewind

open Script

namespace Timeline

variable {lower : Units → Units} {num : ℚ → Units}

/-! ## One event -/

section Event

variable {nodes nodes' : Index} {i j : ℕ} {e : ReplayEvent}

/-- An item at another position. -/
theorem itemOf_at (nodes : Index) (i : ℕ) (e : ReplayEvent) :
    itemOf lower num nodes i e = (itemOf lower num nodes 0 e).map fun item =>
      item.map fun it => { it with eventIndex := i } := by
  unfold itemOf
  split
  · dsimp only
    cases formatConsolePayload num ((e.field "payload").bind fun v => v.get (units "payload")) with
    | error err => rfl
    | ok msg =>
      change Except.ok _ = Except.ok _
      split_ifs <;> rfl
  · split
    · rfl
    · dsimp only
      cases describeNode lower num nodes (e.field "id") with
      | error err => split_ifs <;> rfl
      | ok target => split_ifs <;> rfl

/-- Whether an item can be made does not depend on its position. -/
theorem itemOf_ok_iff : (∃ item, itemOf lower num nodes i e = .ok item) ↔
    ∃ item, itemOf lower num nodes 0 e = .ok item := by
  rw [itemOf_at]
  simp only [map_eq_ok]
  exact ⟨fun ⟨item, it, h, _⟩ => ⟨it, h⟩, fun ⟨it, h⟩ => ⟨_, it, h, rfl⟩⟩

theorem eventIndex_of_itemOf {item : TimelineItem}
    (h : itemOf lower num nodes i e = .ok (some item)) : item.eventIndex = i := by
  rw [itemOf_at, map_eq_ok] at h
  obtain ⟨it, -, hit⟩ := h
  obtain ⟨it', -, rfl⟩ := Option.map_eq_some_iff.mp hit
  rfl

/-- **Two indexes give an event the same item** exactly if they describe the named id alike. -/
theorem itemOf_eq_iff {item : Option TimelineItem}
    (h : itemOf lower num nodes i e = .ok item) :
    itemOf lower num nodes' i e = .ok item ↔ ∀ id, named e = some id →
      describeNode lower num nodes' id = describeNode lower num nodes id := by
  cases hname : named e with
  | none => exact iff_of_true ((itemOf_unnamed lower num hname nodes' nodes i).trans h) (by simp)
  | some id =>
    obtain ⟨kind, message, hinj, hitem⟩ := itemOf_named lower num hname
    rw [hitem, map_eq_ok] at h ⊢
    obtain ⟨target, htarget, rfl⟩ := h
    constructor
    · rintro ⟨target', htarget', heq⟩ id' hid
      obtain rfl := Option.some.inj hid
      have hmsg := congrArg TimelineItem.message (Option.some.inj heq)
      rw [htarget, htarget', hinj hmsg]
    · intro hall
      exact ⟨target, (hall id rfl).trans htarget, rfl⟩

/-- Whether an event has an item does not depend on the index. -/
theorem isSome_itemOf {item item' : Option TimelineItem}
    (h : itemOf lower num nodes i e = .ok item) (h' : itemOf lower num nodes' i e = .ok item') :
    item.isSome = item'.isSome := by
  cases hname : named e with
  | none =>
    rw [itemOf_unnamed lower num hname nodes nodes' i, h'] at h
    rw [Except.ok.inj h]
  | some id =>
    obtain ⟨kind, message, -, hitem⟩ := itemOf_named lower num hname
    rw [hitem, map_eq_ok] at h h'
    obtain ⟨target, -, rfl⟩ := h
    obtain ⟨target', -, rfl⟩ := h'
    rfl

end Event

/-! ## Lists of events -/

section Events

variable {nodes nodes' : Index} {i : ℕ} {es xs ys : List ReplayEvent} {items : List TimelineItem}

theorem pushItems_cons {e : ReplayEvent} :
    pushItems lower num nodes i (e :: es) = .ok items ↔ ∃ item rest,
      itemOf lower num nodes i e = .ok item ∧ pushItems lower num nodes (i + 1) es = .ok rest ∧
        items = item.toList ++ rest := by
  rw [pushItems, bind_eq_ok]
  constructor
  · rintro ⟨item, hitem, h⟩
    obtain ⟨rest, hrest, heq⟩ := bind_eq_ok.mp h
    exact ⟨item, rest, hitem, hrest, (Except.ok.inj heq).symm⟩
  · rintro ⟨item, rest, hitem, hrest, rfl⟩
    exact ⟨item, hitem, bind_eq_ok.mpr ⟨rest, hrest, rfl⟩⟩

theorem pushItems_append :
    pushItems lower num nodes i (xs ++ ys) = .ok items ↔ ∃ first rest,
      pushItems lower num nodes i xs = .ok first ∧
      pushItems lower num nodes (i + xs.length) ys = .ok rest ∧ items = first ++ rest := by
  induction xs generalizing i items with
  | nil =>
    constructor
    · exact fun h => ⟨[], items, rfl, h, rfl⟩
    · rintro ⟨first, rest, hfirst, hrest, rfl⟩
      obtain rfl := Except.ok.inj hfirst
      exact hrest
  | cons x xs ih =>
    have hlen : i + (x :: xs).length = i + 1 + xs.length := by
      rw [List.length_cons]
      omega
    rw [List.cons_append, pushItems_cons, hlen]
    constructor
    · rintro ⟨item, rest, hitem, hrest, rfl⟩
      obtain ⟨first, last, hfirst, hlast, rfl⟩ := ih.mp hrest
      exact ⟨item.toList ++ first, last, pushItems_cons.mpr ⟨item, first, hitem, hfirst, rfl⟩,
        hlast, (List.append_assoc ..).symm⟩
    · rintro ⟨first, last, hfirst, hlast, rfl⟩
      obtain ⟨item, rest, hitem, hrest, rfl⟩ := pushItems_cons.mp hfirst
      exact ⟨item, rest ++ last, hitem, ih.mpr ⟨rest, last, hrest, hlast, rfl⟩,
        List.append_assoc ..⟩

/-- The items of a list of events carry their positions. -/
theorem eventIndex_of_pushItems (h : pushItems lower num nodes i es = .ok items) :
    ∀ item ∈ items, i ≤ item.eventIndex ∧ item.eventIndex < i + es.length := by
  induction es generalizing i items with
  | nil =>
    obtain rfl := Except.ok.inj h
    exact fun item hitem => absurd hitem List.not_mem_nil
  | cons e es ih =>
    obtain ⟨item, rest, hitem, hrest, rfl⟩ := pushItems_cons.mp h
    intro it hit
    rw [List.length_cons]
    rcases List.mem_append.mp hit with hit | hit
    · rw [Option.mem_toList.mp hit] at hitem
      have := eventIndex_of_itemOf hitem
      omega
    · have := ih hrest it hit
      omega

theorem pushItems_ok_iff : (∃ items, pushItems lower num nodes i es = .ok items) ↔
    ∀ e ∈ es, ∃ item, itemOf lower num nodes 0 e = .ok item := by
  induction es generalizing i with
  | nil => exact iff_of_true ⟨[], rfl⟩ (by simp)
  | cons e es ih =>
    rw [List.forall_mem_cons, ← ih (i := i + 1), ← itemOf_ok_iff (i := i)]
    constructor
    · rintro ⟨items, h⟩
      obtain ⟨item, rest, hitem, hrest, -⟩ := pushItems_cons.mp h
      exact ⟨⟨item, hitem⟩, ⟨rest, hrest⟩⟩
    · rintro ⟨⟨item, hitem⟩, ⟨rest, hrest⟩⟩
      exact ⟨_, pushItems_cons.mpr ⟨item, rest, hitem, hrest, rfl⟩⟩

/-- **Two indexes give the same items** exactly if they describe the named ids alike. -/
theorem pushItems_eq_iff (h : pushItems lower num nodes i es = .ok items) :
    pushItems lower num nodes' i es = .ok items ↔ ∀ e ∈ es, ∀ id, named e = some id →
      describeNode lower num nodes' id = describeNode lower num nodes id := by
  induction es generalizing i items with
  | nil => exact iff_of_true h (by simp)
  | cons e es ih =>
    obtain ⟨item, rest, hitem, hrest, rfl⟩ := pushItems_cons.mp h
    rw [List.forall_mem_cons, ← ih hrest, ← itemOf_eq_iff hitem, pushItems_cons]
    constructor
    · rintro ⟨item', rest', hitem', hrest', heq⟩
      have hlen : item'.toList.length = item.toList.length := by
        have hsome := isSome_itemOf hitem' hitem
        cases item' <;> cases item <;> simp_all
      obtain ⟨hi, hr⟩ := List.append_inj heq.symm hlen
      have hi : item' = item := by
        cases item' <;> cases item <;> simp_all
      exact ⟨hi ▸ hitem', hr ▸ hrest'⟩
    · rintro ⟨hitem', hrest'⟩
      exact ⟨item, rest, hitem', hrest', rfl⟩

end Events

/-! ## The nodes of a continuation -/

section Walks

variable {σ τ : Type} {f : Value → σ → Except TypeError (σ × Bool)}
  {f' : Value → τ → Except TypeError (τ × Bool)} {g : σ → τ}

/-- On the states that `g` gives, `f'` does what `f` does. -/
def Follows (f : Value → σ → Except TypeError (σ × Bool))
    (f' : Value → τ → Except TypeError (τ × Bool)) (g : σ → τ) : Prop :=
  ∀ n s, f' n (g s) = (f n s).map fun r => (g r.1, r.2)

mutual

/-- Then a walk with `f'` does what a walk with `f` does. -/
theorem forEachNode_map (hf : Follows f f' g) : ∀ (n : Value) (s : σ),
    forEachNode f' n (g s) = (forEachNode f n s).map g
  | .obj kvs, s => by
    rw [forEachNode, forEachNode, hf]
    refine map_bind fun r => ?_
    dsimp only
    split_ifs
    · exact forEachChild_map hf kvs r.1
    · rfl
  | .null, s | .bool _, s | .num _, s | .str _, s | .arr _, s => by
    rw [forEachNode, forEachNode, hf]
    · exact map_bind fun r => rfl
    all_goals simp

theorem forEachChild_map (hf : Follows f f' g) : ∀ (kvs : List (Units × Value)) (s : σ),
    forEachChild f' kvs (g s) = (forEachChild f kvs s).map g
  | [], _ => rfl
  | (k, v) :: kvs, s => by
    rw [forEachChild, forEachChild]
    split_ifs
    · exact forEachIn_map hf v s
    · exact forEachChild_map hf kvs s

theorem forEachIn_map (hf : Follows f f' g) : ∀ (v : Value) (s : σ),
    forEachIn f' v (g s) = (forEachIn f v s).map g
  | .null, _ => rfl
  | .arr xs, s => forEachAll_map hf xs s
  | .bool _, _ | .num _, _ | .str _, _ | .obj _, _ => rfl

theorem forEachAll_map (hf : Follows f f' g) : ∀ (xs : List Value) (s : σ),
    forEachAll f' xs (g s) = (forEachAll f xs s).map g
  | [], _ => rfl
  | x :: xs, s => by
    rw [forEachAll, forEachAll, forEachNode_map hf x s]
    exact map_bind fun s' => forEachAll_map hf xs s'

end

end Walks

/-- The nodes of `b`, and those of `a` under the other ids. -/
def Index.over (b a : Index) : Index := fun k => (b k).or (a k)

section Continuation

variable {a b nodes nodes' : Index} {xs ys : List ReplayEvent} {id : Option Value}

theorem Index.set_over (a b : Index) (id : ℚ) (info : NodeInfo) :
    (b.over a).set id info = (b.set id info).over a := by
  funext k
  simp only [Index.set, Index.over]
  split_ifs <;> rfl

theorem visit_follows (a : Index) : Follows visit visit fun b => b.over a := by
  intro n b
  unfold visit
  split
  · split_ifs
    · cases elementInfo n with
      | error err => rfl
      | ok info => exact congrArg (fun c => Except.ok (c, true)) (Index.set_over ..)
    · cases textInfo n with
      | error err => rfl
      | ok info => exact congrArg (fun c => Except.ok (c, true)) (Index.set_over ..)
    · rfl
  · rfl

theorem visitAdds_over (adds : List Value) :
    visitAdds adds (b.over a) = (visitAdds adds b).map fun b => b.over a := by
  induction adds generalizing b with
  | nil => rfl
  | cons add adds ih =>
    rw [visitAdds, visitAdds]
    cases access (some add) (units "node") with
    | error err => rfl
    | ok node =>
      change forEachNode visit (node.getD .null) (b.over a) >>= _ = _
      rw [forEachNode_map (visit_follows a)]
      exact map_bind fun _ => ih

theorem indexEvent_over (e : ReplayEvent) :
    indexEvent (b.over a) e = (indexEvent b e).map fun b => b.over a := by
  unfold indexEvent
  split
  · split
    · split_ifs
      · exact forEachNode_map (visit_follows a) ..
      · rfl
    · rfl
  · split_ifs
    · split
      · exact visitAdds_over ..
      · rfl
    · rfl

theorem indexEvents_over (ys : List ReplayEvent) :
    ys.foldlM indexEvent (b.over a) = (ys.foldlM indexEvent b).map fun b => b.over a := by
  induction ys generalizing b with
  | nil => rfl
  | cons y ys ih =>
    rw [List.foldlM_cons, List.foldlM_cons, indexEvent_over]
    exact map_bind fun _ => ih

/-- **The nodes of a continuation stand over those of the first events.** -/
theorem indexNodes_append (hxs : indexNodes xs = .ok a) :
    indexNodes (xs ++ ys) = (indexNodes ys).map fun b => b.over a := by
  rw [indexNodes, List.foldlM_append]
  change indexNodes xs >>= _ = _
  rw [hxs]
  exact indexEvents_over (b := fun _ => none) ys

theorem describeNode_over_some {k : ℚ} {info : NodeInfo} (h : b k = some info) :
    describeNode lower num (b.over a) (some (.num k)) = describeInfo lower num info := by
  have hk : b.over a k = some info := by
    rw [Index.over, h]
    rfl
  simp only [describeNode, hk]

theorem describeNode_over_none {k : ℚ} (h : b k = none) :
    describeNode lower num (b.over a) (some (.num k)) =
      describeNode lower num a (some (.num k)) := by
  have hk : b.over a k = a k := by
    rw [Index.over, h]
    rfl
  simp only [describeNode, hk]

/-- Nodes over others leave the description of an id alone. -/
theorem describeNode_over_iff :
    describeNode lower num (b.over a) id = describeNode lower num a id ↔
      ∀ k info, id = some (.num k) → b k = some info →
        describeInfo lower num info = describeNode lower num a id := by
  constructor
  · rintro h k info rfl hinfo
    rw [← h, describeNode_over_some hinfo]
  · intro h
    match id, h with
    | some (.num k), h =>
      cases hinfo : b k with
      | none => exact describeNode_over_none hinfo
      | some info => rw [describeNode_over_some hinfo, h k info rfl hinfo]
    | none, _ | some .null, _ | some (.bool _), _ | some (.str _), _ | some (.arr _), _
    | some (.obj _), _ => rfl

end Continuation

/-! ## Later events -/

section Later

variable (lower num)

/-- No event makes the code throw. -/
def Readable (events : List ReplayEvent) : Prop :=
  ∃ nodes, indexNodes events = .ok nodes ∧
    ∀ e ∈ events, ∃ item, itemOf lower num nodes 0 e = .ok item

/-- The last node of the events under the id `k`. -/
def LastNode (events : List ReplayEvent) (k : ℚ) (info : NodeInfo) : Prop :=
  ∃ nodes, indexNodes events = .ok nodes ∧ nodes k = some info

/-- How the nodes of a list of events describe an id. -/
def description (events : List ReplayEvent) (id : Option Value) : Except TypeError Units := do
  let nodes ← indexNodes events
  describeNode lower num nodes id

/-- The items of the first `n` events. -/
def firstItems (n : ℕ) (items : List TimelineItem) : List TimelineItem :=
  items.filter fun item => item.eventIndex < n

variable {lower num} {xs ys events : List ReplayEvent} {items : List TimelineItem}

theorem buildTimeline_ok : buildTimeline lower num events = .ok items ↔ ∃ nodes,
    indexNodes events = .ok nodes ∧ pushItems lower num nodes 0 events = .ok items := bind_eq_ok

theorem buildTimeline_ok_iff :
    (∃ items, buildTimeline lower num events = .ok items) ↔ Readable lower num events := by
  simp only [buildTimeline_ok, Readable, ← pushItems_ok_iff (i := 0)]
  exact ⟨fun ⟨items, nodes, hn, hp⟩ => ⟨nodes, hn, items, hp⟩,
    fun ⟨nodes, hn, items, hp⟩ => ⟨items, nodes, hn, hp⟩⟩

theorem buildTimeline_error (h : ¬ Readable lower num events) :
    buildTimeline lower num events = .error .typeError :=
  eq_error_of_ne_ok fun items hitems => h (buildTimeline_ok_iff.mp ⟨items, hitems⟩)

theorem firstItems_append {nodes : Index} {first rest : List TimelineItem}
    (hfirst : pushItems lower num nodes 0 xs = .ok first)
    (hrest : pushItems lower num nodes (0 + xs.length) ys = .ok rest) :
    firstItems xs.length (first ++ rest) = first := by
  have hf : firstItems xs.length first = first := by
    refine List.filter_eq_self.mpr fun item hitem => ?_
    have := eventIndex_of_pushItems hfirst item hitem
    rw [decide_eq_true_iff]
    omega
  have hr : firstItems xs.length rest = [] := by
    refine List.filter_eq_nil_iff.mpr fun item hitem => ?_
    have := eventIndex_of_pushItems hrest item hitem
    rw [decide_eq_true_iff]
    omega
  rw [firstItems, List.filter_append]
  change firstItems _ first ++ firstItems _ rest = first
  rw [hf, hr, List.append_nil]

/-- **The items of the first events**, by the index of all events. -/
theorem firstItems_eq_iff (h : Readable lower num (xs ++ ys)) {first : List TimelineItem} :
    (buildTimeline lower num (xs ++ ys)).map (firstItems xs.length) = .ok first ↔
      ∃ nodes, indexNodes (xs ++ ys) = .ok nodes ∧
        pushItems lower num nodes 0 xs = .ok first := by
  rw [map_eq_ok]
  constructor
  · rintro ⟨items, hitems, rfl⟩
    obtain ⟨nodes, hnodes, hpush⟩ := buildTimeline_ok.mp hitems
    obtain ⟨first, rest, hfirst, hrest, rfl⟩ := pushItems_append.mp hpush
    exact ⟨nodes, hnodes, (firstItems_append hfirst hrest).symm ▸ hfirst⟩
  · rintro ⟨nodes, hnodes, hfirst⟩
    obtain ⟨items, hitems⟩ := buildTimeline_ok_iff.mpr h
    obtain ⟨nodes', hnodes', hpush⟩ := buildTimeline_ok.mp hitems
    obtain rfl := Except.ok.inj (hnodes.symm.trans hnodes')
    obtain ⟨first', rest, hfirst', hrest, rfl⟩ := pushItems_append.mp hpush
    obtain rfl := Except.ok.inj (hfirst.symm.trans hfirst')
    exact ⟨_, hitems, firstItems_append hfirst hrest⟩

/-- The named ids keep their descriptions exactly if the last nodes of the continuation under them
are described in the same way. -/
theorem describeNode_append_iff {nodes nodes' : Index} (hnodes : indexNodes xs = .ok nodes)
    (hnodes' : indexNodes (xs ++ ys) = .ok nodes') :
    (∀ e ∈ xs, ∀ id, named e = some id →
        describeNode lower num nodes' id = describeNode lower num nodes id) ↔
      ∀ e ∈ xs, ∀ k info, named e = some (some (.num k)) → LastNode ys k info →
        describeInfo lower num info = description lower num xs (some (.num k)) := by
  rw [indexNodes_append hnodes, map_eq_ok] at hnodes'
  obtain ⟨later, hlater, rfl⟩ := hnodes'
  have hlast : ∀ k info, LastNode ys k info ↔ later k = some info := by
    intro k info
    refine ⟨fun ⟨nodes', hn, hk⟩ => ?_, fun hk => ⟨later, hlater, hk⟩⟩
    rwa [Except.ok.inj (hlater.symm.trans hn)]
  have hdesc : ∀ id, description lower num xs id = describeNode lower num nodes id := by
    intro id
    rw [description, hnodes]
    rfl
  simp only [describeNode_over_iff, hlast, hdesc]
  constructor
  · intro h e he k info hname
    exact h e he _ hname k info rfl
  · rintro h e he id hname k info rfl
    exact h e he k info hname

/-- **A continuation leaves the items of the first events alone** exactly if the events can be read
with it when they can without it, and each of its last nodes under an id that they name is described
as their own nodes describe the id. -/
theorem timeline_causal_iff (lower : Units → Units) (num : ℚ → Units) (xs ys : List ReplayEvent) :
    (buildTimeline lower num (xs ++ ys)).map (firstItems xs.length) = buildTimeline lower num xs ↔
      (Readable lower num (xs ++ ys) ↔ Readable lower num xs) ∧
      (Readable lower num xs → ∀ e ∈ xs, ∀ k info, named e = some (some (.num k)) →
        LastNode ys k info →
          describeInfo lower num info = description lower num xs (some (.num k))) := by
  by_cases hxs : Readable lower num xs
  · obtain ⟨first, hfirst⟩ := buildTimeline_ok_iff.mpr hxs
    obtain ⟨nodes, hnodes, hpush⟩ := buildTimeline_ok.mp hfirst
    rw [hfirst, iff_true_right hxs]
    by_cases hall : Readable lower num (xs ++ ys)
    · obtain ⟨nodes', hnodes', -⟩ := id hall
      rw [firstItems_eq_iff hall, ← describeNode_append_iff hnodes hnodes',
        ← pushItems_eq_iff hpush]
      constructor
      · rintro ⟨nodes'', hnodes'', hpush'⟩
        obtain rfl := Except.ok.inj (hnodes'.symm.trans hnodes'')
        exact ⟨hall, fun _ => hpush'⟩
      · rintro ⟨-, hpush'⟩
        exact ⟨nodes', hnodes', hpush' hxs⟩
    · rw [buildTimeline_error hall]
      exact iff_of_false (by simp [Except.map]) fun h => hall h.1
  · rw [buildTimeline_error hxs, iff_false_right hxs]
    by_cases hall : Readable lower num (xs ++ ys)
    · obtain ⟨items, hitems⟩ := buildTimeline_ok_iff.mpr hall
      rw [hitems]
      exact iff_of_false (by simp [Except.map]) fun h => h.1 hall
    · rw [buildTimeline_error hall]
      exact iff_of_true rfl ⟨hall, fun h => absurd h hxs⟩

/-- `toLowerCase` of ASCII letters. -/
def lowerAscii (s : Units) : Units := s.map fun u => if 65 ≤ u && u ≤ 90 then u + 32 else u

/-- A page with one button. -/
def page (text : String) (timestamp : ℚ) : ReplayEvent where
  type := 2
  data := some (.obj [(units "node", .obj [(units "type", .num 0), (units "id", .num 1),
    (units "childNodes", .arr [.obj [(units "type", .num 2), (units "id", .num 5),
      (units "tagName", .str (units "button")), (units "attributes", .obj []),
      (units "childNodes", .arr [.obj [(units "type", .num 3), (units "id", .num 6),
        (units "textContent", .str (units text))]])]])])])
  timestamp := timestamp

/-- A click on the button. -/
def clickOnButton (timestamp : ℚ) : ReplayEvent where
  type := 3
  data := some (.obj [(units "source", .num 2), (units "type", .num 2), (units "id", .num 5)])
  timestamp := timestamp

/-- The next page of the session gives the id of the clicked button to another one. -/
theorem next_page_renames : ¬ ∀ (lower : Units → Units) (num : ℚ → Units)
    (xs ys : List ReplayEvent), (buildTimeline lower num (xs ++ ys)).map (firstItems xs.length) =
      buildTimeline lower num xs := by
  intro hall
  have h := hall lowerAscii (fun _ => []) [page "Pay" 0, clickOnButton 1] [page "Home" 2]
  exact absurd h (by decide +kernel)

end Later

end Timeline

end BatRewind
