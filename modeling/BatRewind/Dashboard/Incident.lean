import BatRewind.Dashboard.Console
import BatRewind.Lib.Format
import BatRewind.Lib.Lines

/-!
# The incident report

`buildIncidentReport` of `packages/dashboard/src/lib/incident.ts`. The text of a number, the rounding
of a result to a double, `Date.parse` and `toLowerCase` are the parameters `num`, `double`,
`dateParse` and `lower`.

* `clip`, `fmtDuration`, `rel`, `label`, `reportLines`, `buildIncidentReport`: the code.
* `hrefs`: the addresses of the navigations; `navigate_pushItems`: they are those of the timeline.
* `Structured`: the lines of a report are those that the code makes, and the tags of the console
  section are as many as the header says; `structured_iff`.
* **`report_structured_iff`**: a report is so exactly if the events can be read and no line break
  stands in a field of the header.
-/

namespace BatRewind

open Script Timeline

namespace Incident

/-! ## The code -/

/-- The fields of a session that the report reads. -/
structure ReplaySession where
  id : Units
  identifier : Units
  startUrl : Units
  environment : Units
  serviceName : Units
  startedAt : Units
  durationMs : Option ℚ
  eventCount : ℚ
  trigger : Units

/-- A message on one line, of at most 300 units. -/
def clip (s : Units) : Units :=
  let oneLine := trim (collapseSpaces s)
  if 300 < oneLine.length then oneLine.take 300 ++ units "…" else oneLine

/-- `s || t` for strings; the first may be missing. -/
def orText (s : Option Units) (t : Units) : Units :=
  match s with
  | none | some [] => t
  | some s => s

def label : TimelineKind → Units
  | .error => units "error"
  | .warn => units "warn"
  | .log => units "log"
  | .info => units "info"
  | .click => units "click"
  | .navigate => units "nav"
  | .input => units "input"

section Text

variable (num : ℚ → Units) (double : ℚ → ℚ)

def fmtDuration (ms : Option ℚ) : Units :=
  match ms with
  | none => units "—"
  | some ms =>
    if ms = 0 then units "—"
    else if ms < 1000 then num ms ++ units "ms"
    else if ms < 60000 then toFixed num (double (ms / 1000)) ++ units "s"
    else
      let m := (double (ms / 60000)).floor
      -- `%` is exact
      let s := (double ((ms - 60000 * (ms / 60000).floor) / 1000)).floor
      num m ++ units "m " ++ num s ++ units "s"

/-- The time since the start, in seconds. -/
def rel (ts start : ℚ) : Units :=
  units "+" ++ toFixed num (double (double (ts - start) / 1000)) ++ units "s"

def trigger (session : ReplaySession) : Units :=
  if session.trigger = units "manual" then units "reported"
  else orText (some session.trigger) (units "unknown")

/-- The recorded start URL, or the first navigation. -/
def startUrl (session : ReplaySession) (firstNav : Option Units) : Units :=
  orText (some session.startUrl) (orText firstNav (units "—"))

/-- The last navigation, if it is shown. -/
def lastUrl (session : ReplaySession) (firstNav lastNav : Option Units) : Option Units :=
  lastNav.filter fun url => url ≠ [] ∧ url ≠ startUrl session firstNav

/-- The lines of the header, down to the title of the timeline. -/
def headerLines (session : ReplaySession) (started : ℤ) (errors warnings : ℕ)
    (firstNav lastNav : Option Units) : List Units :=
  [units "# BatRewind incident — " ++ session.serviceName ++ units " (" ++ session.environment ++
      units ")",
    [],
    units "- Session: " ++ session.id,
    units "- User: " ++ orText (some session.identifier) (units "—"),
    units "- Trigger: " ++ trigger session,
    units "- Started: " ++ toISOString started,
    units "- Duration: " ++ fmtDuration num double session.durationMs,
    units "- Events: " ++ num session.eventCount ++ units " · Errors: " ++ num errors ++
      units " · Warnings: " ++ num warnings,
    units "- Start URL: " ++ startUrl session firstNav] ++
  ((lastUrl session firstNav lastNav).map fun url => units "- Last URL: " ++ url).toList ++
  [[], units "## Timeline (relative to session start)"]

def timelineLine (start : ℚ) (item : TimelineItem) : Units :=
  rel num double item.timestamp start ++ units "\t" ++ label item.kind ++ units "\t" ++
    clip item.message

def timelineLines (start : ℚ) (timeline : List TimelineItem) : List Units :=
  if timeline = [] then [units "(no user actions captured)"]
  else timeline.map (timelineLine num double start)

/-- The items of the console. -/
def consoleItems (timeline : List TimelineItem) : List TimelineItem :=
  timeline.filter fun t => t.kind = .error ∨ t.kind = .warn ∨ t.kind = .log ∨ t.kind = .info

def consoleLine (start : ℚ) (item : TimelineItem) : Units :=
  units "[" ++ label item.kind ++ units "] " ++ rel num double item.timestamp start ++ units " " ++
    clip item.message

def consoleLines (start : ℚ) (timeline : List TimelineItem) : List Units :=
  if consoleItems timeline = [] then []
  else [] :: units "## Console" :: (consoleItems timeline).map (consoleLine num double start)

def closingLines : List Units :=
  [[], units "---",
    units "This is a recorded user session (session replay). It describes what the user did and " ++
      units "where it broke. Use it with the project source open to locate the cause."]

/-- The message of the first navigation. -/
def firstNavigation (timeline : List TimelineItem) : Option Units :=
  (timeline.find? fun t => t.kind = .navigate).map TimelineItem.message

/-- **The lines of the report**, in the order in which they are pushed. -/
def reportLines (session : ReplaySession) (started : ℤ) (start : ℚ)
    (timeline : List TimelineItem) : List Units :=
  let counts := countConsole timeline
  headerLines num double session started counts.1 counts.2 (firstNavigation timeline)
      (firstNavigation timeline.reverse) ++
    timelineLines num double start timeline ++ consoleLines num double start timeline ++
      closingLines

end Text

/-- The time of the first event. -/
def startOf (events : List ReplayEvent) : ℚ := (events.head?.map ReplayEvent.timestamp).getD 0

inductive ReportError where
  | typeError | rangeError

/-- **The report of a session.** A start that is not a date has no text. -/
def buildIncidentReport (lower : Units → Units) (num : ℚ → Units) (double : ℚ → ℚ)
    (dateParse : Units → Option ℤ) (session : ReplaySession) (events : List ReplayEvent) :
    Except ReportError Units :=
  match buildTimeline lower num events with
  | .error _ => .error .typeError
  | .ok timeline =>
    match dateParse session.startedAt with
    | none => .error .rangeError
    | some started =>
      .ok (List.intercalate (units "\n")
        (reportLines num double session started (startOf events) timeline))

/-! ## Navigations -/

section Navigations

variable {lower : Units → Units} {num : ℚ → Units} {nodes : Index} {i : ℕ} {e : ReplayEvent}
  {events : List ReplayEvent} {items : List TimelineItem}

/-- The address of a navigation. -/
def href (e : ReplayEvent) : Option Units :=
  if e.type = 4 then asStr (e.field "href") else none

theorem consoleLevelToKind_ne (level : Option Value) : consoleLevelToKind level ≠ .navigate := by
  unfold consoleLevelToKind
  split
  · split_ifs <;> decide
  · decide

theorem href_eq_none (h : ∀ url, (decide (e.type = 4) && truthy e.data) = true →
    asStr (e.field "href") = some url → False) : href e = none := by
  unfold href
  split_ifs with htype
  · cases hurl : asStr (e.field "href") with
    | none => rfl
    | some url =>
      have hfield : e.field "href" ≠ none := by
        intro hnone
        rw [hnone] at hurl
        cases hurl
      exact (h url (by simp [htype, e.truthy_data hfield]) hurl).elim
  · rfl

/-- **The items of navigations are those of Meta events with an address.** -/
theorem navigate_itemOf {item : Option TimelineItem} (h : itemOf lower num nodes i e = .ok item) :
    (item.filter fun t => t.kind = .navigate).map TimelineItem.message = href e := by
  unfold itemOf at h
  split at h
  · next hconsole =>
    obtain ⟨msg, -, hmsg⟩ := bind_eq_ok.mp h
    have hitem := Except.ok.inj hmsg
    have hnone : href e = none := by
      rw [href, hconsole.1]
      exact if_neg (by decide)
    rw [← hitem, hnone]
    split_ifs
    · simp [Option.filter, consoleLevelToKind_ne]
    · rfl
  · next hconsole =>
    split at h
    · next url htype hurl =>
      rw [← Except.ok.inj h, href, hurl, if_pos (by simpa using (Bool.and_eq_true_iff.mp htype).1)]
      rfl
    · next hnot =>
      rw [href_eq_none hnot]
      have hdescribed : ∀ {kind : TimelineKind} {message : Units → Units}, kind ≠ .navigate →
          (describeNode lower num nodes (e.field "id") >>= fun target =>
            pure (some ⟨i, kind, message target, e.timestamp⟩)) = Except.ok item →
          (item.filter fun t => t.kind = .navigate).map TimelineItem.message = none := by
        intro kind message hkind h
        obtain ⟨target, -, hitem⟩ := bind_eq_ok.mp h
        rw [← Except.ok.inj hitem]
        simp [Option.filter, hkind]
      dsimp only at h
      split_ifs at h
      · exact hdescribed (by decide) h
      · exact hdescribed (by decide) h
      · exact Except.ok.inj h ▸ rfl
      · exact hdescribed (by decide) h
      · exact Except.ok.inj h ▸ rfl
      · exact Except.ok.inj h ▸ rfl

/-- The addresses of the navigations. -/
def hrefs (events : List ReplayEvent) : List Units := events.filterMap href

theorem navigate_pushItems (h : pushItems lower num nodes i events = .ok items) :
    (items.filter fun t => t.kind = .navigate).map TimelineItem.message = hrefs events := by
  induction events generalizing i items with
  | nil =>
    obtain rfl := Except.ok.inj h
    rfl
  | cons e events ih =>
    obtain ⟨item, rest, hitem, hrest, rfl⟩ := pushItems_cons.mp h
    have hfirst := navigate_itemOf hitem
    rw [List.filter_append, List.map_append, ih hrest, hrefs, hrefs, List.filterMap_cons, ← hfirst]
    cases item with
    | none => rfl
    | some item => by_cases hkind : item.kind = .navigate <;> simp [Option.filter, hkind]

/-- The first and the last navigation of a timeline. -/
theorem firstNavigation_eq (h : buildTimeline lower num events = .ok items) :
    firstNavigation items = (hrefs events).head? ∧
      firstNavigation items.reverse = (hrefs events).getLast? := by
  obtain ⟨nodes, -, hpush⟩ := buildTimeline_ok.mp h
  rw [← navigate_pushItems hpush, List.head?_map, List.head?_filter, List.getLast?_map,
    ← List.head?_reverse, ← List.filter_reverse, List.head?_filter]
  exact ⟨rfl, rfl⟩

end Navigations

/-! ## The console section -/

section Sections

variable {num : ℚ → Units} {double : ℚ → ℚ} {start : ℚ} {items : List TimelineItem}

/-- The counts of the header. -/
theorem countConsole_eq (items : List TimelineItem) : countConsole items =
    ((items.filter fun t => t.kind = .error).length,
      (items.filter fun t => t.kind = .warn).length) := by
  have hfold : ∀ (items : List TimelineItem) (m n : ℕ),
      items.foldl (fun c item =>
        if item.kind = .error then (c.1 + 1, c.2)
        else if item.kind = .warn then (c.1, c.2 + 1)
        else c) (m, n) =
        (m + (items.filter fun t => t.kind = .error).length,
          n + (items.filter fun t => t.kind = .warn).length) := by
    intro items
    induction items with
    | nil => exact fun m n => rfl
    | cons item items ih =>
      intro m n
      rw [List.foldl_cons]
      cases hkind : item.kind <;> simp [hkind, ih] <;> omega
  rw [countConsole, hfold, Nat.zero_add, Nat.zero_add]

/-- The lines below the title of the console section, up to an empty one. -/
def consoleSection (ls : List Units) : List Units :=
  ((ls.dropWhile fun l => l ≠ units "## Console").drop 1).takeWhile fun l => l ≠ []

/-- The tag of a kind of items. -/
def tag (kind : TimelineKind) : Units := units "[" ++ label kind ++ units "]"

/-- The number of lines with the tag of a kind. -/
def tagged (kind : TimelineKind) (ls : List Units) : ℕ := (ls.filter fun l => tag kind <+: l).length

/-- A line that begins otherwise is another line. -/
theorem append_ne {s t : Units} (rest : Units) (n : ℕ) (hn : n ≤ s.length)
    (h : s.take n ≠ t.take n) : s ++ rest ≠ t := by
  intro heq
  rw [← heq, List.take_append_of_le_length hn] at h
  exact h rfl

theorem not_prefix {s t : Units} (rest : Units) (n : ℕ) (hs : n ≤ s.length) (ht : n ≤ t.length)
    (h : t.take n ≠ s.take n) : ¬ t <+: s ++ rest := by
  rintro ⟨tail, heq⟩
  have htake := congrArg (List.take n) heq
  rw [List.take_append_of_le_length ht, List.take_append_of_le_length hs] at htake
  exact h htake

/-- The tag of a line tells the kind of its item. -/
theorem tag_prefix_iff (kind : TimelineKind) (item : TimelineItem) :
    tag kind <+: consoleLine num double start item ↔ item.kind = kind := by
  have hline : consoleLine num double start item = tag item.kind ++
      (units " " ++ rel num double item.timestamp start ++ units " " ++ clip item.message) := by
    simp only [consoleLine, tag, List.append_assoc]
    rfl
  have hlen : ∀ k, 4 ≤ (tag k).length := by
    intro k
    cases k <;> decide
  have hne : ∀ k k', k ≠ k' → (tag k).take 4 ≠ (tag k').take 4 := by
    intro k k' hk
    cases k <;> cases k' <;> first | exact absurd rfl hk | decide
  rw [hline]
  constructor
  · intro h
    by_contra hkind
    exact not_prefix _ 4 (hlen _) (hlen _) (hne _ _ (Ne.symm hkind)) h
  · rintro rfl
    exact List.prefix_append ..

theorem tagged_consoleLines (kind : TimelineKind) (items : List TimelineItem) :
    tagged kind (items.map (consoleLine num double start)) =
      (items.filter fun t => t.kind = kind).length := by
  rw [tagged, List.filter_map, List.length_map]
  exact congrArg List.length (List.filter_congr fun item _ => by simp [tag_prefix_iff])

theorem consoleLine_ne_nil (item : TimelineItem) : consoleLine num double start item ≠ [] := by
  intro h
  have hprefix : tag item.kind <+: consoleLine num double start item :=
    (tag_prefix_iff item.kind item).mpr rfl
  rw [h, List.prefix_nil, tag, List.append_eq_nil_iff, List.append_eq_nil_iff] at hprefix
  exact units_ne_nil (by decide) hprefix.2

/-- No line of the header is the title of the console section. -/
theorem headerLines_ne_title {session : ReplaySession} {started : ℤ} {errors warnings : ℕ}
    {firstNav lastNav : Option Units} {l : Units}
    (h : l ∈ headerLines num double session started errors warnings firstNav lastNav) :
    l ≠ units "## Console" := by
  simp only [headerLines, List.append_assoc, List.mem_append, List.mem_cons, List.not_mem_nil,
    or_false, Option.mem_toList, Option.map_eq_some_iff] at h
  rcases h with (rfl | rfl | rfl | rfl | rfl | rfl | rfl | rfl | rfl) | ⟨url, -, rfl⟩ | rfl | rfl
  all_goals first
    | decide
    | exact append_ne _ 2 (by decide) (by decide)

theorem timelineLines_ne_title {l : Units} (h : l ∈ timelineLines num double start items) :
    l ≠ units "## Console" := by
  unfold timelineLines at h
  split_ifs at h
  · rw [List.mem_singleton.mp h]
    decide
  · obtain ⟨item, -, rfl⟩ := List.mem_map.mp h
    simp only [timelineLine, rel, List.append_assoc]
    exact append_ne _ 1 (by decide) (by decide)

/-- **The console section is read back.** -/
theorem consoleSection_reportLines (session : ReplaySession) (started : ℤ) (start : ℚ)
    (items : List TimelineItem) :
    consoleSection (reportLines num double session started start items) =
      (consoleItems items).map (consoleLine num double start) := by
  have hbody : ∀ l ∈ (consoleItems items).map (consoleLine num double start), decide (l ≠ []) := by
    intro l hl
    obtain ⟨item, -, rfl⟩ := List.mem_map.mp hl
    exact decide_eq_true (consoleLine_ne_nil item)
  unfold consoleSection reportLines
  dsimp only
  rw [List.append_assoc, List.append_assoc,
    List.dropWhile_append_of_pos fun l hl => decide_eq_true (headerLines_ne_title hl),
    List.dropWhile_append_of_pos fun l hl => decide_eq_true (timelineLines_ne_title hl)]
  unfold consoleLines
  split_ifs with hnone
  · rw [hnone, List.map_nil]
    decide
  · have hdrop : ∀ ls : List Units, ([] :: units "## Console" :: ls).dropWhile
        (fun l => l ≠ units "## Console") = units "## Console" :: ls := fun ls => by
      rw [List.dropWhile_cons_of_pos (by decide), List.dropWhile_cons_of_neg (by simp)]
    rw [List.cons_append, List.cons_append, hdrop, List.drop_one, List.tail_cons,
      List.takeWhile_append_of_pos hbody]
    exact List.append_nil _

end Sections

/-! ## Line breaks -/

section Breaks

variable {num : ℚ → Units} {double : ℚ → ℚ} {start : ℚ} {items : List TimelineItem}

theorem not_mem_clip (s : Units) : 0x0a ∉ clip s := by
  have hdots : 0x0a ∉ units "…" := by decide
  have hline : 0x0a ∉ trim (collapseSpaces s) := fun h =>
    absurd (eq_blank_of_mem_collapseSpaces (mem_of_mem_trim h) (by decide)) (by decide)
  unfold clip
  dsimp only
  split_ifs
  · rw [List.mem_append, not_or]
    exact ⟨fun h => hline (List.mem_of_mem_take h), hdots⟩
  · exact hline

theorem not_mem_label (kind : TimelineKind) : 0x0a ∉ label kind := by
  cases kind <;> decide

theorem not_mem_rel (hnum : ∀ q, 0x0a ∉ num q) (ts start : ℚ) : 0x0a ∉ rel num double ts start := by
  have hplus : 0x0a ∉ units "+" := by decide
  have hunit : 0x0a ∉ units "s" := by decide
  simp [rel, hplus, hunit, not_mem_toFixed hnum]

theorem not_mem_fmtDuration (hnum : ∀ q, 0x0a ∉ num q) (ms : Option ℚ) :
    0x0a ∉ fmtDuration num double ms := by
  have hunits : 0x0a ∉ units "—" ∧ 0x0a ∉ units "ms" ∧ 0x0a ∉ units "s" ∧ 0x0a ∉ units "m " := by
    decide
  unfold fmtDuration
  split
  · exact hunits.1
  · dsimp only
    split_ifs <;> simp [hunits, hnum, not_mem_toFixed hnum]

theorem mem_orText_iff {u : UInt16} {s t : Units} (ht : u ∉ t) : u ∈ orText (some s) t ↔ u ∈ s := by
  cases s with
  | nil => exact iff_of_false ht List.not_mem_nil
  | cons v s => exact Iff.rfl

theorem mem_trigger_iff (session : ReplaySession) :
    0x0a ∈ trigger session ↔ 0x0a ∈ session.trigger := by
  unfold trigger
  split_ifs with hmanual
  · rw [hmanual]
    decide
  · exact mem_orText_iff (by decide)

/-- The lines of the items have no line break in them. -/
theorem not_mem_items (hnum : ∀ q, 0x0a ∉ num q) {l : Units}
    (h : l ∈ timelineLines num double start items ++
      (consoleLines num double start items ++ closingLines)) :
    0x0a ∉ l := by
  have hfixed : 0x0a ∉ units "\t" ∧ 0x0a ∉ units "[" ∧ 0x0a ∉ units "] " ∧ 0x0a ∉ units " " := by
    decide
  rcases List.mem_append.mp h with h | h
  · unfold timelineLines at h
    split_ifs at h
    · rw [List.mem_singleton.mp h]
      decide
    · obtain ⟨item, -, rfl⟩ := List.mem_map.mp h
      simp [timelineLine, hfixed, not_mem_rel hnum, not_mem_label, not_mem_clip]
  rcases List.mem_append.mp h with h | h
  · unfold consoleLines at h
    split_ifs at h
    · exact absurd h List.not_mem_nil
    · simp only [List.mem_cons, List.mem_map] at h
      rcases h with rfl | rfl | ⟨item, -, rfl⟩
      · exact List.not_mem_nil
      · decide
      · simp [consoleLine, hfixed, not_mem_rel hnum, not_mem_label, not_mem_clip]
  · have hclosing : ∀ l ∈ closingLines, 0x0a ∉ l := by decide
    exact hclosing l h

/-- **No line break in the fields of the header**, where `urls` are the navigations. -/
structure ClearFields (session : ReplaySession) (urls : List Units) : Prop where
  serviceName : 0x0a ∉ session.serviceName
  environment : 0x0a ∉ session.environment
  id : 0x0a ∉ session.id
  identifier : 0x0a ∉ session.identifier
  trigger : 0x0a ∉ session.trigger
  startUrl : 0x0a ∉ startUrl session urls.head?
  lastUrl : ∀ url, lastUrl session urls.head? urls.getLast? = some url → 0x0a ∉ url

/-- **The lines of the header** have no line break in them exactly if its fields have none. -/
theorem headerLines_clear_iff (hnum : ∀ q, 0x0a ∉ num q) (session : ReplaySession) (started : ℤ)
    (errors warnings : ℕ) (urls : List Units) :
    (∀ l ∈ headerLines num double session started errors warnings urls.head? urls.getLast?,
      0x0a ∉ l) ↔
      ClearFields session urls := by
  have hfixed : ∀ s ∈ ["# BatRewind incident — ", " (", ")", "- Session: ", "- User: ", "—",
      "- Trigger: ", "- Started: ", "- Duration: ", "- Events: ", " · Errors: ", " · Warnings: ",
      "- Start URL: ", "- Last URL: ", "## Timeline (relative to session start)"],
      0x0a ∉ units s := by decide
  simp only [List.forall_mem_cons, List.not_mem_nil, false_imp_iff, implies_true, and_true]
    at hfixed
  simp only [headerLines, List.forall_mem_append, List.forall_mem_cons, Option.mem_toList,
    Option.map_eq_some_iff, forall_exists_index, and_imp, forall_apply_eq_imp_iff₂]
  simp only [List.mem_append, hfixed, hnum, not_mem_toISOString, not_mem_fmtDuration hnum,
    List.not_mem_nil, false_or, or_false, not_or, not_false_eq_true, true_and, and_true,
    false_imp_iff, implies_true]
  rw [mem_orText_iff (by decide), mem_trigger_iff]
  constructor
  · rintro ⟨⟨⟨hname, henv⟩, hid, hidentifier, htrigger, hstart⟩, hlast⟩
    exact ⟨hname, henv, hid, hidentifier, htrigger, hstart, hlast⟩
  · intro h
    exact ⟨⟨⟨h.serviceName, h.environment⟩, h.id, h.identifier, h.trigger, h.startUrl⟩, h.lastUrl⟩

end Breaks

/-! ## Main theorem -/

section Main

variable {lower : Units → Units} {num : ℚ → Units} {double : ℚ → ℚ}
  {dateParse : Units → Option ℤ} {session : ReplaySession} {events : List ReplayEvent}
  {items : List TimelineItem} {started : ℤ}

/-- The number of lines of a report of `n` items, of which `c` are from the console. -/
def lineCount (hasLastUrl : Bool) (n c : ℕ) : ℕ :=
  14 + (if hasLastUrl then 1 else 0) + max 1 n + if c = 0 then 0 else c + 2

/-- **The lines of a report.** -/
structure Laid (num : ℚ → Units) (double : ℚ → ℚ) (session : ReplaySession) (started : ℤ) (start : ℚ)
    (items : List TimelineItem) (ls : List Units) : Prop where
  lines : ls = reportLines num double session started start items
  length : ls.length = lineCount
    (lastUrl session (firstNavigation items) (firstNavigation items.reverse)).isSome items.length
    (consoleItems items).length
  errors : tagged .error (consoleSection ls) = (countConsole items).1
  warnings : tagged .warn (consoleSection ls) = (countConsole items).2

/-- **There is a report, and its lines are those that the code makes.** -/
def Structured (lower : Units → Units) (num : ℚ → Units) (double : ℚ → ℚ)
    (dateParse : Units → Option ℤ) (session : ReplaySession) (events : List ReplayEvent) : Prop :=
  ∃ started items text, dateParse session.startedAt = some started ∧
    buildTimeline lower num events = .ok items ∧
    buildIncidentReport lower num double dateParse session events = .ok text ∧
    Laid num double session started (startOf events) items (text.splitOn 0x0a)

theorem length_reportLines (session : ReplaySession) (started : ℤ) (start : ℚ)
    (items : List TimelineItem) :
    (reportLines num double session started start items).length = lineCount
      (lastUrl session (firstNavigation items) (firstNavigation items.reverse)).isSome items.length
      (consoleItems items).length := by
  have htimeline : (timelineLines num double start items).length = max 1 items.length := by
    unfold timelineLines
    cases items with
    | nil => rfl
    | cons item items => simp
  have hconsole : (consoleLines num double start items).length =
      if (consoleItems items).length = 0 then 0 else (consoleItems items).length + 2 := by
    unfold consoleLines
    cases consoleItems items with
    | nil => rfl
    | cons item items => simp
  unfold reportLines headerLines lineCount
  simp only [List.length_append, htimeline, hconsole]
  cases lastUrl session (firstNavigation items) (firstNavigation items.reverse) with
  | none => simp [closingLines]; omega
  | some url => simp [closingLines]; omega

/-- The lines that the code makes are those of a report. -/
theorem laid_reportLines (session : ReplaySession) (started : ℤ) (start : ℚ)
    (items : List TimelineItem) :
    Laid num double session started start items (reportLines num double session started start items) := by
  have htagged : ∀ kind, kind = .error ∨ kind = .warn →
      tagged kind (consoleSection (reportLines num double session started start items)) =
        (items.filter fun t => t.kind = kind).length := by
    intro kind hkind
    rw [consoleSection_reportLines, tagged_consoleLines, consoleItems, List.filter_filter]
    refine congrArg List.length (List.filter_congr fun t _ => ?_)
    rcases hkind with rfl | rfl <;> cases t.kind <;> rfl
  refine ⟨rfl, length_reportLines .., ?_, ?_⟩
  · rw [htagged _ (Or.inl rfl), countConsole_eq]
  · rw [htagged _ (Or.inr rfl), countConsole_eq]

theorem buildIncidentReport_eq (hitems : buildTimeline lower num events = .ok items)
    (hdate : dateParse session.startedAt = some started) :
    buildIncidentReport lower num double dateParse session events =
      .ok (List.intercalate [0x0a] (reportLines num double session started (startOf events) items)) := by
  unfold buildIncidentReport
  rw [hitems]
  dsimp only
  rw [hdate]
  rfl

theorem reportLines_clear_iff (hnum : ∀ q, 0x0a ∉ num q)
    (hitems : buildTimeline lower num events = .ok items) :
    (∀ l ∈ reportLines num double session started (startOf events) items, 0x0a ∉ l) ↔
      ClearFields session (hrefs events) := by
  obtain ⟨hfirst, hlast⟩ := firstNavigation_eq hitems
  rw [← headerLines_clear_iff hnum session started (countConsole items).1 (countConsole items).2,
    reportLines, hfirst, hlast, List.append_assoc, List.append_assoc, List.forall_mem_append]
  exact and_iff_left fun l hl => not_mem_items hnum hl

/-- **Of events that can be read** there is such a report exactly if the fields of the header have
no line break in them. -/
theorem structured_iff (hnum : ∀ q, 0x0a ∉ num q)
    (hitems : buildTimeline lower num events = .ok items)
    (hdate : dateParse session.startedAt = some started) :
    Structured lower num double dateParse session events ↔ ClearFields session (hrefs events) := by
  have hne : reportLines num double session started (startOf events) items ≠ [] := by
    intro h
    have hlen : (reportLines num double session started (startOf events) items).length = _ :=
      length_reportLines session started (startOf events) items
    rw [h, lineCount, List.length_nil] at hlen
    omega
  have hreport : buildIncidentReport lower num double dateParse session events = _ :=
    buildIncidentReport_eq hitems hdate
  rw [← reportLines_clear_iff hnum hitems, ← Lines.splitOn_intercalate_iff hne]
  constructor
  · rintro ⟨started', items', text, hdate', hitems', hreport', hlaid⟩
    obtain rfl := Option.some.inj (hdate'.symm.trans hdate)
    obtain rfl := Except.ok.inj (hitems'.symm.trans hitems)
    obtain rfl := Except.ok.inj (hreport'.symm.trans hreport)
    exact hlaid.lines
  · intro hlines
    refine ⟨started, items, _, hdate, hitems, hreport, ?_⟩
    rw [hlines]
    exact laid_reportLines session started (startOf events) items

/-- **When recorded data cannot forge the structure of a report.** -/
theorem report_structured_iff (lower : Units → Units) (num : ℚ → Units) (double : ℚ → ℚ)
    (dateParse : Units → Option ℤ) (hnum : ∀ q, 0x0a ∉ num q) (session : ReplaySession)
    (events : List ReplayEvent) (started : ℤ)
    (hdate : dateParse session.startedAt = some started) :
    Structured lower num double dateParse session events ↔
      Readable lower num events ∧ ClearFields session (hrefs events) := by
  constructor
  · intro h
    obtain ⟨-, items, -, -, hitems, -⟩ := id h
    exact ⟨buildTimeline_ok_iff.mp ⟨items, hitems⟩, (structured_iff hnum hitems hdate).mp h⟩
  · rintro ⟨hreadable, hclear⟩
    obtain ⟨items, hitems⟩ := buildTimeline_ok_iff.mpr hreadable
    exact (structured_iff hnum hitems hdate).mpr hclear

/-- A session of a checkout page. -/
def checkout (environment : String) : ReplaySession where
  id := units "78b43c84-8644-4a08-a49f-e87d881a46a5"
  identifier := units "user@example.com"
  startUrl := units "https://app.example.com/dashboard"
  environment := units environment
  serviceName := units "checkout"
  startedAt := units "2026-06-24T12:49:37Z"
  durationMs := none
  eventCount := 1
  trigger := units "manual"

/-- The start of the session. -/
def checkoutDate (s : Units) : Option ℤ :=
  if s = units "2026-06-24T12:49:37Z" then some 1782305377000 else none

/-- A report with one error. -/
theorem report_checkout : Structured lowerAscii (fun q => intText q.num) id checkoutDate
    (checkout "production") [consoleError [units "TypeError"] 0] :=
  (report_structured_iff lowerAscii (fun q => intText q.num) id checkoutDate
    (fun q => not_mem_intText q.num) (checkout "production") [consoleError [units "TypeError"] 0]
    1782305377000 (by decide)).mpr
    ⟨buildTimeline_ok_iff.mp ⟨[⟨0, .error, units "TypeError", 0⟩], by decide +kernel⟩,
      by decide, by decide, by decide, by decide, by decide, by decide, by decide⟩

/-- The environment of a session puts a line of its own into the header. -/
theorem report_forged : ¬ Structured lowerAscii (fun q => intText q.num) id checkoutDate
    (checkout "production)\n- Trigger: forged") [] := by
  intro h
  have hclear := (structured_iff (fun q => not_mem_intText q.num) rfl rfl).mp h
  exact hclear.environment (by decide)

end Main

end Incident

end BatRewind
