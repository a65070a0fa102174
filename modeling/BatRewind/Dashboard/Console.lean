import BatRewind.Dashboard.Causal
import BatRewind.Lib.JsonStringify

/-!
# Console messages

The recorder puts the string literal of each argument of a console call into an event, and
`formatConsolePayload` takes the quotes away.

* `loggedText`: what was logged; `Logs e args`: the event of a console call with these arguments.
* `formatConsolePayload_quoted`: the message is the text of the insides of the literals.
* `pushItems_at`: the items of one event of a timeline.
* **`console_text_iff`**: the message is what was logged exactly if no argument needs an escape.
-/

namespace BatRewind

open Script

namespace Timeline

/-! ## Messages -/

/-- Strings with single spaces between them, trimmed. -/
def loggedText (args : List Units) : Units := trim (List.intercalate (units " ") args)

section Message

variable (num : ℚ → Units)

/-- The quotes of a literal are taken away. -/
theorem consoleArgument_quoted (a : Units) :
    consoleArgument num (.str (quoted a)) = .ok (quoteUnits a) := by
  have hprefix : units "\"" <+: quoted a := ⟨quoteUnits a ++ [0x22], rfl⟩
  have hsuffix : units "\"" <:+ quoted a := ⟨0x22 :: quoteUnits a, rfl⟩
  have hlen : 2 ≤ (quoted a).length := by simp [quoted]
  have hinside : ((quoted a).drop 1).dropLast = quoteUnits a := List.dropLast_concat
  rw [consoleArgument, if_pos ⟨hlen, hprefix, hsuffix⟩, hinside]

/-- **The insides of the literals are the message.** -/
theorem formatConsolePayload_quoted (args : List Units) :
    formatConsolePayload num (some (.arr (args.map fun a => .str (quoted a)))) =
      .ok (loggedText (args.map quoteUnits)) := by
  have hmap : (args.map fun a => Value.str (quoted a)).mapM (consoleArgument num) =
      .ok (args.map quoteUnits) := by
    induction args with
    | nil => rfl
    | cons a args ih =>
      rw [List.map_cons, List.mapM_cons, consoleArgument_quoted, ih]
      rfl
  rw [formatConsolePayload, hmap]
  rfl

theorem length_flatMap_solid_le (args : List Units) : (args.flatMap solid).length ≤
      ((args.map quoteUnits).flatMap solid).length ∧
    ((∃ a ∈ args, unescaped a = false) →
      (args.flatMap solid).length < ((args.map quoteUnits).flatMap solid).length) := by
  induction args with
  | nil => exact ⟨le_rfl, fun ⟨a, ha, _⟩ => absurd ha List.not_mem_nil⟩
  | cons a args ih =>
    have hfirst := length_solid_le a
    rw [List.map_cons, List.flatMap_cons, List.flatMap_cons, List.length_append, List.length_append]
    refine ⟨by omega, ?_⟩
    rintro ⟨b, hb, hesc⟩
    rcases List.mem_cons.mp hb with rfl | hb
    · have := hfirst.2 hesc
      omega
    · have := ih.2 ⟨b, hb, hesc⟩
      omega

/-- **Escapes are seen in the message**: trimming and spaces do not hide them. -/
theorem loggedText_quoteUnits (args : List Units) :
    loggedText (args.map quoteUnits) = loggedText args ↔ ∀ a ∈ args, unescaped a := by
  have hsolid : ∀ args, solid (loggedText args) = args.flatMap solid := by
    intro args
    rw [loggedText, solid_trim, solid_intercalate _ (by decide)]
  constructor
  · intro h
    by_contra hesc
    simp only [not_forall, Bool.not_eq_true] at hesc
    obtain ⟨a, ha, hesc⟩ := hesc
    have hlt := (length_flatMap_solid_le args).2 ⟨a, ha, hesc⟩
    rw [← hsolid, ← hsolid, h] at hlt
    exact lt_irrefl _ hlt
  · intro h
    rw [List.map_congr_left fun a ha => quoteUnits_of_unescaped (h a ha), List.map_id']

end Message

/-! ## The items of one event -/

section Items

variable {lower : Units → Units} {num : ℚ → Units} {nodes : Index} {i : ℕ} {e : ReplayEvent}
  {xs ys events : List ReplayEvent} {items : List TimelineItem} {args : List Units}

/-- **The items at the position of an event** are those of the event. -/
theorem pushItems_at (h : pushItems lower num nodes i (xs ++ e :: ys) = .ok items) :
    ∃ item, itemOf lower num nodes (i + xs.length) e = .ok item ∧
      (items.filter fun it => it.eventIndex = i + xs.length) = item.toList := by
  obtain ⟨first, rest, hfirst, hrest, rfl⟩ := pushItems_append.mp h
  obtain ⟨item, last, hitem, hlast, rfl⟩ := pushItems_cons.mp hrest
  refine ⟨item, hitem, ?_⟩
  have hbefore : (first.filter fun it => it.eventIndex = i + xs.length) = [] := by
    refine List.filter_eq_nil_iff.mpr fun it hit => ?_
    have := eventIndex_of_pushItems hfirst it hit
    simp only [decide_eq_true_eq]
    omega
  have hafter : (last.filter fun it => it.eventIndex = i + xs.length) = [] := by
    refine List.filter_eq_nil_iff.mpr fun it hit => ?_
    have := eventIndex_of_pushItems hlast it hit
    simp only [decide_eq_true_eq]
    omega
  have hat : (item.toList.filter fun it => it.eventIndex = i + xs.length) = item.toList := by
    refine List.filter_eq_self.mpr fun it hit => ?_
    rw [Option.mem_toList.mp hit] at hitem
    exact decide_eq_true (eventIndex_of_itemOf hitem)
  rw [List.filter_append, List.filter_append, hbefore, hafter, hat, List.nil_append,
    List.append_nil]

/-- The event of a console call with string arguments, which the recorder writes as literals. -/
def Logs (e : ReplayEvent) (args : List Units) : Prop :=
  e.type = 6 ∧ isConsole (e.field "plugin") ∧
    ((e.field "payload").bind fun v => v.get (units "payload")) =
      some (.arr (args.map fun a => .str (quoted a)))

/-- The messages of a timeline for the event at a position. -/
def messagesAt (i : ℕ) (items : List TimelineItem) : List Units :=
  (items.filter fun it => it.eventIndex = i).map TimelineItem.message

/-- **The item of a console call.** -/
theorem itemOf_logs (h : Logs e args) (nodes : Index) (i : ℕ) : ∃ kind,
    itemOf lower num nodes i e = .ok (if loggedText (args.map quoteUnits) ≠ [] then
      some ⟨i, kind, loggedText (args.map quoteUnits), e.timestamp⟩ else none) := by
  obtain ⟨htype, hplugin, hpayload⟩ := h
  have hfield : e.field "plugin" ≠ none := by
    intro hnone
    rw [hnone] at hplugin
    exact absurd hplugin Bool.false_ne_true
  have hconsole : e.type = 6 ∧ truthy e.data ∧ isConsole (e.field "plugin") :=
    ⟨htype, e.truthy_data hfield, hplugin⟩
  unfold itemOf
  rw [if_pos hconsole]
  dsimp only
  rw [hpayload, formatConsolePayload_quoted]
  exact ⟨_, rfl⟩

theorem messagesAt_logs (h : Logs e args)
    (hitems : buildTimeline lower num (xs ++ e :: ys) = .ok items) :
    messagesAt xs.length items = if loggedText (args.map quoteUnits) ≠ [] then
      [loggedText (args.map quoteUnits)] else [] := by
  obtain ⟨nodes, -, hpush⟩ := buildTimeline_ok.mp hitems
  obtain ⟨item, hitem, hat⟩ := pushItems_at hpush
  rw [zero_add] at hitem hat
  obtain ⟨kind, hlogs⟩ := itemOf_logs h nodes xs.length
  obtain rfl := Except.ok.inj (hlogs.symm.trans hitem)
  rw [messagesAt, hat]
  split_ifs <;> rfl

end Items

/-! ## Main theorem -/

/-- **A console message is shown as logged** exactly if no argument needs an escape: when the
message is formatted, and in the timeline of every session with the event of such a call. -/
theorem console_text_iff (lower : Units → Units) (num : ℚ → Units) (args : List Units) :
    (formatConsolePayload num (some (.arr (args.map fun a => .str (quoted a)))) =
        .ok (loggedText args) ↔ ∀ a ∈ args, unescaped a) ∧
      ∀ e xs ys items, Logs e args → buildTimeline lower num (xs ++ e :: ys) = .ok items →
        (messagesAt xs.length items = (if loggedText args ≠ [] then [loggedText args] else []) ↔
          ∀ a ∈ args, unescaped a) := by
  refine ⟨?_, fun e xs ys items hlogs hitems => ?_⟩
  · rw [formatConsolePayload_quoted, Except.ok.injEq, loggedText_quoteUnits]
  · rw [messagesAt_logs hlogs hitems, ← loggedText_quoteUnits]
    constructor
    · intro h
      split_ifs at h with hquoted hlogged hlogged
      · exact List.singleton_inj.mp h
      · rw [not_not.mp hquoted, not_not.mp hlogged]
    · intro h
      rw [h]

/-- An error that is logged. -/
def consoleError (args : List Units) (timestamp : ℚ) : ReplayEvent where
  type := 6
  data := some (.obj [(units "plugin", .str (units "rrweb/console@1")),
    (units "payload", .obj [(units "level", .str (units "error")),
      (units "payload", .arr (args.map fun a => .str (quoted a)))])])
  timestamp := timestamp

/-- A session with one message. -/
theorem console_plain : ∃ items,
    buildTimeline lowerAscii (fun _ => [])
      [consoleError [units "TypeError:", units "not a function"] 5] = .ok items ∧
    messagesAt 0 items = [units "TypeError: not a function"] := by
  have hitems : buildTimeline lowerAscii (fun _ => [])
      [consoleError [units "TypeError:", units "not a function"] 5] =
        .ok [⟨0, .error, units "TypeError: not a function", 5⟩] := by decide +kernel
  have htext := (console_text_iff lowerAscii (fun _ => [])
    [units "TypeError:", units "not a function"]).2 _ [] [] _ ⟨by decide, by decide, rfl⟩ hitems
  exact ⟨_, hitems, htext.mpr (by decide)⟩

/-- The quotes in a message are shown with backslashes. -/
theorem console_quotes : formatConsolePayload (fun _ => [])
    (some (.arr ([units "(reading \"data\")"].map fun a => .str (quoted a)))) ≠
      .ok (loggedText [units "(reading \"data\")"]) := by
  decide +kernel

end Timeline

end BatRewind
