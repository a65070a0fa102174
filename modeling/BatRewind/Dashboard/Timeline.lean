import BatRewind.Lib.Script

/-!
# The timeline of a session

`buildTimeline` of `packages/dashboard/src/lib/timeline.ts`. The data of an event is any value that
the API sends; an operation that a value does not have throws. The text of a number and
`toLowerCase` are the parameters `num` and `lower`.

* `forEachNode`: a node and the nodes below it; `collectText` and `visit` are instances.
* `indexNodes`, `describeNode`: the nodes by their ids, and the name of a clicked node.
* `itemOf`, `buildTimeline`: the item of an event, and the timeline.
* `named`: the id that a click or an input names; **`itemOf_named`**, `itemOf_unnamed`: an item
  depends on the index through the description of that id only, and tells it.
-/

namespace BatRewind

open Script

namespace Timeline

/-! ## The nodes of a snapshot -/

section Nodes

variable {σ : Type} (f : Value → σ → Except TypeError (σ × Bool))

mutual

/-- Apply `f` to a node and, if it says so, to the nodes below it. -/
def forEachNode : Value → σ → Except TypeError σ
  | .obj kvs, s => do
    let r ← f (.obj kvs) s
    if r.2 then forEachChild kvs r.1 else return r.1
  | n, s => do
    let r ← f n s
    return r.1

/-- `(n.childNodes ?? []).forEach(..)` for the entries of `n`. -/
def forEachChild : List (Units × Value) → σ → Except TypeError σ
  | [], s => .ok s
  | (k, v) :: kvs, s => if k = units "childNodes" then forEachIn v s else forEachChild kvs s

/-- `v.forEach(..)`: only an array has it. -/
def forEachIn : Value → σ → Except TypeError σ
  | .null, s => .ok s
  | .arr xs, s => forEachAll xs s
  | _, _ => .error .typeError

def forEachAll : List Value → σ → Except TypeError σ
  | [], s => .ok s
  | x :: xs, s => do
    let s ← forEachNode x s
    forEachAll xs s

end

end Nodes

structure NodeInfo where
  tag : Option Value := none
  text : Units
  domId : Option Value := none
  className : Option Units := none
  aria : Option Value := none
  name : Option Value := none
  placeholder : Option Value := none

/-- A `Map<number, NodeInfo>`. -/
abbrev Index := ℚ → Option NodeInfo

def Index.set (nodes : Index) (id : ℚ) (info : NodeInfo) : Index :=
  fun k => if k = id then some info else nodes k

/-- The body of `walk`, for the text collected so far. -/
def walk (n : Value) (out : Units) : Except TypeError (Units × Bool) :=
  if !truthy (some n) || decide (60 < out.length) then .ok (out, false)
  else
    match isNum (n.get (units "type")) 3, asStr (n.get (units "textContent")) with
    | true, some text => .ok (out ++ text, true)
    | _, _ => .ok (out, true)

/-- A short label from the text nodes below a node. -/
def collectText (node : Value) : Except TypeError Units := do
  let out ← forEachNode walk node []
  return trim (collapseSpaces out)

/-- What the index holds for an element. -/
def elementInfo (n : Value) : Except TypeError NodeInfo := do
  let a := fun key => ((n.get (units "attributes")).bind fun v => v.get key)
  let text ← collectText n
  return {
    tag := n.get (units "tagName")
    domId := a (units "id")
    className := asStr (a (units "class"))
    aria := a (units "aria-label")
    name := a (units "name")
    placeholder := a (units "placeholder")
    text := text }

/-- What the index holds for a text node. -/
def textInfo (n : Value) : Except TypeError NodeInfo :=
  match n.get (units "textContent") with
  | none | some .null => .ok { text := [] }
  | some (.str s) => .ok { text := trim (collapseSpaces s) }
  | some _ => .error .typeError

/-- The body of `visit`. -/
def visit (n : Value) (nodes : Index) : Except TypeError (Index × Bool) :=
  match n.get (units "id") with
  | some (.num id) =>
    if isNum (n.get (units "type")) 2 then do
      let info ← elementInfo n
      return (nodes.set id info, true)
    else if isNum (n.get (units "type")) 3 then do
      let info ← textInfo n
      return (nodes.set id info, true)
    else .ok (nodes, true)
  | _ => .ok (nodes, true)

/-! ## The index -/

structure ReplayEvent where
  type : ℚ
  data : Option Value
  timestamp : ℚ

/-- A property of the data of an event. -/
def ReplayEvent.field (e : ReplayEvent) (key : String) : Option Value :=
  e.data.bind fun d => d.get (units key)

/-- Only objects have properties. -/
theorem ReplayEvent.truthy_data {e : ReplayEvent} {key : String} (h : e.field key ≠ none) :
    truthy e.data := by
  unfold ReplayEvent.field at h
  match hdata : e.data with
  | some (.obj kvs) => rfl
  | none | some .null | some (.bool _) | some (.num _) | some (.str _) | some (.arr _) =>
    rw [hdata] at h
    exact absurd rfl h

/-- `visit(add.node)` for the additions of a mutation. -/
def visitAdds : List Value → Index → Except TypeError Index
  | [], nodes => .ok nodes
  | add :: adds, nodes => do
    let node ← access (some add) (units "node")
    let nodes ← forEachNode visit (node.getD .null) nodes
    visitAdds adds nodes

/-- The body of the loop of `indexNodes`: full snapshots and mutations. -/
def indexEvent (nodes : Index) (e : ReplayEvent) : Except TypeError Index :=
  if e.type = 2 then
    match e.field "node" with
    | some node => if truthy (some node) then forEachNode visit node nodes else .ok nodes
    | none => .ok nodes
  else if e.type = 3 ∧ isNum (e.field "source") 0 then
    match e.field "adds" with
    | some (.arr adds) => visitAdds adds nodes
    | _ => .ok nodes
  else .ok nodes

/-- **Index every serialized node by its id**, over all events. -/
def indexNodes (events : List ReplayEvent) : Except TypeError Index :=
  events.foldlM indexEvent fun _ => none

/-! ## Items -/

inductive TimelineKind where
  | error | warn | log | info | click | navigate | input
deriving DecidableEq

structure TimelineItem where
  eventIndex : ℕ
  kind : TimelineKind
  message : Units
  timestamp : ℚ
deriving DecidableEq

def consoleLevelToKind (level : Option Value) : TimelineKind :=
  match asStr level with
  | some s =>
    if s = units "error" ∨ s = units "assert" then .error
    else if s = units "warn" then .warn
    else if s = units "info" then .info
    else .log
  | none => .log

section Items

variable (lower : Units → Units) (num : ℚ → Units)

/-- The first part of a label that is present is put behind the tag. -/
def describeInfo (n : NodeInfo) : Except TypeError Units := do
  let tag ← match orElse n.tag (some (.str (units "element"))) with
    | some (.str s) => Except.ok (lower s)
    | _ => .error .typeError
  let text := n.text.take 40
  let label := orElse (orElse n.aria n.placeholder) n.name
  if text ≠ [] then return tag ++ units " \"" ++ text ++ units "\""
  match truthy label, label with
  | true, some v =>
    let text ← v.toText num
    return tag ++ units " \"" ++ text ++ units "\""
  | _, _ =>
    match truthy n.domId, n.domId with
    | true, some v =>
      let text ← v.toText num
      return tag ++ units "#" ++ text
    | _, _ =>
      match n.className with
      | some (u :: s) => return tag ++ units "." ++ (u :: s).takeWhile fun c => c ≠ 0x20
      | _ => return tag

/-- **The name of a clicked or typed node.** -/
def describeNode (nodes : Index) (id : Option Value) : Except TypeError Units :=
  match id with
  | some (.num k) =>
    match nodes k with
    | some n => describeInfo lower num n
    | none => .ok []
  | _ => .ok []

/-- One argument of a console call, without one layer of quotes. -/
def consoleArgument : Value → Except TypeError Units
  | .str p =>
    if 2 ≤ p.length ∧ units "\"" <+: p ∧ units "\"" <:+ p then .ok (p.drop 1).dropLast
    else .ok p
  | p => p.toText num

def formatConsolePayload (payload : Option Value) : Except TypeError Units :=
  match payload with
  | none | some .null => .ok []
  | some (.arr ps) => do
    let texts ← ps.mapM (consoleArgument num)
    return trim (List.intercalate (units " ") texts)
  | some v => v.toText num

/-- The message of a click, for what was clicked on. -/
def clickMessage (verb target : Units) : Units :=
  if target ≠ [] then verb ++ units " on " ++ target else verb

/-- The message of an input, for what was typed in. -/
def inputMessage (target : Units) : Units :=
  if target ≠ [] then units "Typed in " ++ target else units "User typed"

/-- Whether the plugin of an event is the console plugin. -/
def isConsole (plugin : Option Value) : Bool :=
  match asStr plugin with
  | some p => units "console" <:+: p
  | none => false

/-- **The item of an event**, if it has one. -/
def itemOf (nodes : Index) (eventIndex : ℕ) (e : ReplayEvent) :
    Except TypeError (Option TimelineItem) :=
  if e.type = 6 ∧ truthy e.data ∧ isConsole (e.field "plugin") then do
    let payload := e.field "payload"
    let level := orElse (payload.bind fun v => v.get (units "level")) (some (.str (units "log")))
    let msg ← formatConsolePayload num (payload.bind fun v => v.get (units "payload"))
    return if msg ≠ [] then some ⟨eventIndex, consoleLevelToKind level, msg, e.timestamp⟩ else none
  else
    match decide (e.type = 4) && truthy e.data, asStr (e.field "href") with
    | true, some href => .ok (some ⟨eventIndex, .navigate, href, e.timestamp⟩)
    | _, _ =>
      if e.type = 3 ∧ truthy e.data then
        if isNum (e.field "source") 2 then
          let t := e.field "type"
          if isNum t 2 ∨ isNum t 4 then do
            let verb := if isNum t 4 then units "Double click" else units "Click"
            let target ← describeNode lower num nodes (e.field "id")
            return some ⟨eventIndex, .click, clickMessage verb target, e.timestamp⟩
          else .ok none
        else if isNum (e.field "source") 5 then do
          let target ← describeNode lower num nodes (e.field "id")
          return some ⟨eventIndex, .input, inputMessage target, e.timestamp⟩
        else .ok none
      else .ok none

/-- The loop of `buildTimeline`. -/
def pushItems (nodes : Index) : ℕ → List ReplayEvent → Except TypeError (List TimelineItem)
  | _, [] => .ok []
  | i, e :: events => do
    let item ← itemOf lower num nodes i e
    let items ← pushItems nodes (i + 1) events
    return item.toList ++ items

/-- **The timeline of a list of events.** -/
def buildTimeline (events : List ReplayEvent) : Except TypeError (List TimelineItem) := do
  let nodes ← indexNodes events
  pushItems lower num nodes 0 events

end Items

/-- The errors and the warnings of a timeline. -/
def countConsole (items : List TimelineItem) : ℕ × ℕ :=
  items.foldl (fun c item =>
    if item.kind = .error then (c.1 + 1, c.2)
    else if item.kind = .warn then (c.1, c.2 + 1)
    else c) (0, 0)

/-! ## What an item depends on -/

/-- The id that a click or an input names. -/
def named (e : ReplayEvent) : Option (Option Value) :=
  if e.type = 3 ∧ truthy e.data ∧ (isNum (e.field "source") 2 ∧
      (isNum (e.field "type") 2 ∨ isNum (e.field "type") 4) ∨
      ¬ isNum (e.field "source") 2 ∧ isNum (e.field "source") 5) then some (e.field "id")
  else none

theorem clickMessage_injective (verb : Units) : Function.Injective (clickMessage verb) := by
  have hne : ∀ u : Units, verb ++ units " on " ++ u ≠ verb := by
    intro u hu
    rw [List.append_assoc, List.append_right_eq_self] at hu
    exact units_ne_nil (by decide) (List.append_eq_nil_iff.mp hu).1
  intro s t h
  unfold clickMessage at h
  split_ifs at h with hs ht ht
  · exact List.append_cancel_left h
  · exact absurd h (hne s)
  · exact absurd h.symm (hne t)
  · rw [not_not.mp hs, not_not.mp ht]

theorem inputMessage_injective : Function.Injective inputMessage := by
  have hne : ∀ u : Units, units "Typed in " ++ u ≠ units "User typed" := by
    intro u hu
    have hhead : (units "Typed in " ++ u).head? = (units "User typed").head? := by rw [hu]
    rw [List.head?_append_of_ne_nil _ (units_ne_nil (by decide))] at hhead
    exact absurd hhead (by decide)
  intro s t h
  unfold inputMessage at h
  split_ifs at h with hs ht ht
  · exact List.append_cancel_left h
  · exact absurd h (hne s)
  · exact absurd h.symm (hne t)
  · rw [not_not.mp hs, not_not.mp ht]

section Depends

variable (lower : Units → Units) (num : ℚ → Units) {e : ReplayEvent}

/-- **The item of a click or an input** determines how the node is described. -/
theorem itemOf_named {id : Option Value} (h : named e = some id) :
    ∃ kind message, Function.Injective message ∧ ∀ nodes i, itemOf lower num nodes i e =
      (describeNode lower num nodes id).map fun target =>
        some ⟨i, kind, message target, e.timestamp⟩ := by
  unfold named at h
  split_ifs at h with hn
  obtain ⟨htype, hdata, hsource⟩ := hn
  obtain rfl := Option.some.inj h
  rcases hsource with ⟨hsource, ht⟩ | ⟨hmouse, hinput⟩
  · refine ⟨.click, clickMessage _, clickMessage_injective
      (if isNum (e.field "type") 4 then units "Double click" else units "Click"),
      fun nodes i => ?_⟩
    simp [itemOf, htype, hdata, hsource, ht]
    rfl
  · refine ⟨.input, inputMessage, inputMessage_injective, fun nodes i => ?_⟩
    simp [itemOf, htype, hdata, hmouse, hinput]
    rfl

/-- Any other item does not depend on the index. -/
theorem itemOf_unnamed (h : named e = none) (nodes nodes' : Index) (i : ℕ) :
    itemOf lower num nodes i e = itemOf lower num nodes' i e := by
  have hn : ¬ (e.type = 3 ∧ truthy e.data ∧ (isNum (e.field "source") 2 ∧
      (isNum (e.field "type") 2 ∨ isNum (e.field "type") 4) ∨
      ¬ isNum (e.field "source") 2 ∧ isNum (e.field "source") 5)) := fun hn => by
    rw [named, if_pos hn] at h
    exact Option.some_ne_none _ h
  by_cases htype : e.type = 3 ∧ truthy e.data
  · obtain ⟨htype, hdata⟩ := htype
    simp only [htype, hdata, true_and] at hn
    by_cases hmouse : isNum (e.field "source") 2
    · have ht : ¬ (isNum (e.field "type") 2 ∨ isNum (e.field "type") 4) := fun ht =>
        hn (Or.inl ⟨hmouse, ht⟩)
      simp [itemOf, htype, hmouse, ht]
    · have hinput : ¬ isNum (e.field "source") 5 := fun hinput => hn (Or.inr ⟨hmouse, hinput⟩)
      simp [itemOf, htype, hmouse, hinput]
  · simp only [itemOf, if_neg htype]

end Depends

end Timeline

end BatRewind
