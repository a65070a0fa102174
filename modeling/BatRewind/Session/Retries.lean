import BatRewind.Session.LastWrite

/-!
# Dead letters are retried once

`RetryFailed` reads a dead letter, ingests its payload and marks it resolved in separate
statements, and it never looks at `resolved`: two retries of one dead letter, one after the other
or side by side, ingest it twice. Only the list of `RetryAllFailed` leaves out what is resolved.

* `Retries`: the dead letter that every program has in hand, and what has been inserted so far.
* `OneHand`: every dead letter is in one hand at most; `RowsKept`: the events that were added are
  those of the inserted dead letters.
* `Claimed`: a retry reads a dead letter only if it is unresolved and no other program has it in
  hand.
* **`retried_once`**: in every interleaving in which that holds, the events of a dead letter are
  inserted at most once, and never after it was resolved.
-/

namespace BatRewind

open Encoding Tables Effects Effects.Prog

/-! ## What the retries have done so far -/

/-- A dead letter that was read by `GetFailed`, whether its events have been inserted, and the
events. -/
structure Letter where
  id : String
  inserted : Bool
  events : List RawEvent

/-- **The retries so far**: what every program has in hand, the dead letters whose events have been
inserted, and those that were resolved by then. -/
structure Retries where
  hand : ℕ → Option Letter := fun _ => none
  inserted : List String := []
  again : List String := []

/-- The dead letter is stored and marked as resolved. -/
def DB.resolved (db : DB) (id : String) : Bool := (db.failed.find id).any FailedIngest.resolved

/-- The events in the payload of a dead letter. -/
def FailedIngest.events (f : FailedIngest) : List RawEvent :=
  match decode f.payload with
  | .ok req => req.events
  | .error _ => []

/-- The events of the dead letter with this id. -/
def DB.letterEvents (db : DB) (id : String) : List RawEvent :=
  ((db.failed.find id).map FailedIngest.events).getD []

/-- The retries after a call of program `k` in the database `db`: the program takes a dead letter
that decodes in hand and leaves it when it marks it resolved. -/
def Retries.after (k : ℕ) (db : DB) (g : Retries) : (Σ c, Resp c) → Retries
  | ⟨.sql (.selectFailed id), .ok f⟩ =>
    { g with hand := Function.update g.hand k (match decode f.payload with
        | .ok req => some ⟨id, false, req.events⟩
        | .error _ => none) }
  | ⟨.sql (.insertEvents _), .ok _⟩ =>
    match g.hand k with
    | some h =>
      { hand := Function.update g.hand k (some ⟨h.id, true, h.events⟩)
        inserted := g.inserted ++ [h.id]
        again := if db.resolved h.id then g.again ++ [h.id] else g.again }
    | none => g
  | ⟨.sql (.markFailedResolved _ _), .ok _⟩ => { g with hand := Function.update g.hand k none }
  | _ => g

/-- Every statement is accepted, and the retries are recorded. -/
def Recorded (k : ℕ) : Handler Call Resp (DB × Retries) := fun c s s' r =>
  Healthy c s.1 s'.1 r ∧ s'.2 = s.2.after k s.1 ⟨c, r⟩

/-- **A dead letter that decodes is read only while it is unresolved and in nobody's hand.** -/
def Claimed (k : ℕ) : Handler Call Resp (DB × Retries) := fun c s s' r =>
  Recorded k c s s' r ∧ ∀ id f req, c = .sql (.selectFailed id) → s.1.failed.find id = some f →
    decode f.payload = .ok req → f.resolved = false ∧ ∀ j h, s.2.hand j = some h → h.id ≠ id

/-! ## The invariant -/

section Invariant

/-- The other programs leave what program `k` has in hand. -/
def LetterKept (k : ℕ) (s s' : DB × Retries) : Prop := s'.2.hand k = s.2.hand k

instance (k : ℕ) : Std.Refl (LetterKept k) := ⟨fun _ => rfl⟩

instance (k : ℕ) : IsTrans (DB × Retries) (LetterKept k) := ⟨fun _ _ _ h₁ h₂ => h₂.trans h₁⟩

/-- The statements that neither read nor change a dead letter, nor add or remove events. -/
def Stmt.keepsLetter : Stmt → Bool
  | .selectFailed _ | .insertEvents _ | .markFailedResolved _ _ | .insertFailed _
  | .deleteSession _ | .purgeSessions _ => false
  | _ => true

/-- **The guarantee**: a program reads with empty hands, inserts the events of the dead letter it
has in hand once, and marks only that one. -/
def Proceeds (k : ℕ) (c : Call) (s : DB × Retries) : Prop :=
  match c with
  | .sql (.selectFailed _) => s.2.hand k = none
  | .sql (.insertEvents es) => ∃ id, s.2.hand k = some ⟨id, false, es.map ReplayEvent.raw⟩
  | .sql (.markFailedResolved id _) => ∃ events, s.2.hand k = some ⟨id, true, events⟩
  | .sql q => q.keepsLetter = true
  | _ => True

/-- **The invariant**: what is in hand is unresolved and in one hand only, and what was inserted is
resolved or still in hand. -/
structure OneHand (s : DB × Retries) : Prop where
  inserted : s.2.inserted.Nodup
  again : s.2.again = []
  unresolved : ∀ k h, s.2.hand k = some h → ∃ f, s.1.failed.find h.id = some f ∧ f.resolved = false
  alone : ∀ j k h h', s.2.hand j = some h → s.2.hand k = some h' → h.id = h'.id → j = k
  settled : ∀ id ∈ s.2.inserted,
    s.1.resolved id = true ∨ ∃ k events, s.2.hand k = some ⟨id, true, events⟩

variable {k : ℕ} {s s' : DB × Retries}

/-- What is in hand and not inserted yet has not been inserted by anyone. -/
theorem OneHand.fresh (h : OneHand s) {id : String} {events : List RawEvent}
    (hk : s.2.hand k = some ⟨id, false, events⟩) : id ∉ s.2.inserted := by
  intro hmem
  rcases h.settled id hmem with hres | ⟨j, events', hj⟩
  · obtain ⟨f, hf, hunres⟩ := h.unresolved k _ hk
    simp [DB.resolved, hf, hunres] at hres
  · obtain rfl := h.alone j k _ _ hj hk rfl
    rw [hk] at hj
    cases hj

/-- What was inserted is resolved or in the hand of another than `k`, who does not have it. -/
theorem OneHand.settled_other (h : OneHand s) {id : String} (hid : id ∈ s.2.inserted)
    (hk : ∀ events, s.2.hand k ≠ some ⟨id, true, events⟩) :
    s.1.resolved id = true ∨ ∃ j events, j ≠ k ∧ s.2.hand j = some ⟨id, true, events⟩ := by
  refine (h.settled id hid).imp_right fun hhand => ?_
  obtain ⟨j, events, hj⟩ := hhand
  refine ⟨j, events, ?_, hj⟩
  rintro rfl
  exact hk events hj

theorem resolved_congr {db db' : DB} (h : db'.failed = db.failed) (id : String) :
    db'.resolved id = db.resolved id := by
  rw [DB.resolved, h]
  rfl

/-- One hand changes, the others do not. -/
theorem hand_update {g g' : Retries} {x : Option Letter}
    (h : g'.hand = Function.update g.hand k x) :
    g'.hand k = x ∧ ∀ j, j ≠ k → g'.hand j = g.hand j := by
  rw [h]
  exact ⟨Function.update_self .., fun j hj => Function.update_of_ne hj ..⟩

/-- A call that leaves the dead letters and the retries alone. -/
theorem OneHand.frame (h : OneHand s) (hfailed : s'.1.failed = s.1.failed) (hg : s'.2 = s.2) :
    OneHand s' := by
  refine ⟨hg ▸ h.inserted, hg ▸ h.again, ?_, hg ▸ h.alone, ?_⟩
  · rw [hg, hfailed]
    exact h.unresolved
  · simpa only [hg, resolved_congr hfailed] using h.settled

/-- A program with empty hands takes a dead letter in hand, or none. -/
theorem OneHand.take (h : OneHand s) (hfailed : s'.1.failed = s.1.failed)
    (hempty : s.2.hand k = none) {taken : Option Letter}
    (hg : s'.2 = { s.2 with hand := Function.update s.2.hand k taken })
    (htaken : ∀ x, taken = some x → x.inserted = false ∧
      (∃ f, s.1.failed.find x.id = some f ∧ f.resolved = false) ∧
      ∀ j y, s.2.hand j = some y → y.id ≠ x.id) : OneHand s' := by
  obtain ⟨hself, hother⟩ := hand_update (congrArg Retries.hand hg)
  have hins : s'.2.inserted = s.2.inserted := by rw [hg]
  refine ⟨hins ▸ h.inserted, by rw [hg]; exact h.again, ?_, ?_, ?_⟩
  · intro j x hj
    rw [hfailed]
    by_cases hjk : j = k
    · subst hjk
      exact (htaken x (hself ▸ hj)).2.1
    · exact h.unresolved j x (hother j hjk ▸ hj)
  · intro i j x y hi hj hid
    by_cases hik : i = k
    · by_cases hjk : j = k
      · rw [hik, hjk]
      · subst hik
        exact absurd hid.symm ((htaken x (hself ▸ hi)).2.2 j y (hother j hjk ▸ hj))
    · by_cases hjk : j = k
      · subst hjk
        exact absurd hid ((htaken y (hself ▸ hj)).2.2 i x (hother i hik ▸ hi))
      · exact h.alone i j x y (hother i hik ▸ hi) (hother j hjk ▸ hj) hid
  · intro id hid
    rw [resolved_congr hfailed]
    rw [hins] at hid
    rcases h.settled_other hid (k := k) (by simp [hempty]) with hdone | ⟨j, events, hjk, hj⟩
    · exact Or.inl hdone
    · exact Or.inr ⟨j, events, (hother j hjk).trans hj⟩

/-- The events of the dead letter in hand are inserted. -/
theorem OneHand.insert (h : OneHand s) (hfailed : s'.1.failed = s.1.failed) {id : String}
    {events : List RawEvent} (hk : s.2.hand k = some ⟨id, false, events⟩)
    (hg : s'.2 = { hand := Function.update s.2.hand k (some ⟨id, true, events⟩),
                   inserted := s.2.inserted ++ [id],
                   again := if s.1.resolved id then s.2.again ++ [id] else s.2.again }) :
    OneHand s' := by
  obtain ⟨f, hf, hunres⟩ := h.unresolved k _ hk
  obtain ⟨hself, hother⟩ := hand_update (congrArg Retries.hand hg)
  -- the hands hold the dead letters that they held before
  have hhand : ∀ j y, s'.2.hand j = some y → ∃ x, s.2.hand j = some x ∧ x.id = y.id := by
    intro j y hj
    by_cases hjk : j = k
    · subst hjk
      rw [hself] at hj
      obtain rfl := Option.some.inj hj
      exact ⟨_, hk, rfl⟩
    · exact ⟨y, hother j hjk ▸ hj, rfl⟩
  refine ⟨?_, ?_, ?_, ?_, ?_⟩
  · rw [hg]
    exact List.nodup_append.mpr ⟨h.inserted, List.nodup_singleton id, fun a ha b hb hab =>
      h.fresh hk (List.mem_singleton.mp hb ▸ hab ▸ ha)⟩
  · have hno : s.1.resolved id = false := by simp [DB.resolved, hf, hunres]
    rw [hg]
    simpa [hno] using h.again
  · intro j y hj
    obtain ⟨x, hx, hxy⟩ := hhand j y hj
    rw [hfailed, ← hxy]
    exact h.unresolved j x hx
  · intro i j x y hi hj hxy
    obtain ⟨x', hx, hxx⟩ := hhand i x hi
    obtain ⟨y', hy, hyy⟩ := hhand j y hj
    exact h.alone i j x' y' hx hy (by rw [hxx, hyy, hxy])
  · intro id' hid
    rw [resolved_congr hfailed]
    rw [hg] at hid
    rcases List.mem_append.mp hid with hold | hnew
    · rcases h.settled_other hold (k := k) (by simp [hk]) with hdone | ⟨j, events', hjk, hj⟩
      · exact Or.inl hdone
      · exact Or.inr ⟨j, events', (hother j hjk).trans hj⟩
    · obtain rfl := List.mem_singleton.mp hnew
      exact Or.inr ⟨k, events, hself⟩

/-- The dead letter in hand is marked as resolved. -/
theorem OneHand.mark (h : OneHand s) {id : String} {events : List RawEvent} (now : Time)
    (hk : s.2.hand k = some ⟨id, true, events⟩)
    (hfailed : ∀ id', s'.1.failed.find id' = (s.1.failed.find id').map fun f =>
      if id' = id then { f with resolved := true, resolvedAt := some now } else f)
    (hg : s'.2 = { s.2 with hand := Function.update s.2.hand k none }) : OneHand s' := by
  obtain ⟨hself, hother⟩ := hand_update (congrArg Retries.hand hg)
  have hsub : ∀ j x, s'.2.hand j = some x → j ≠ k ∧ s.2.hand j = some x := by
    intro j x hj
    have hjk : j ≠ k := by
      rintro rfl
      rw [hself] at hj
      cases hj
    exact ⟨hjk, hother j hjk ▸ hj⟩
  refine ⟨by rw [hg]; exact h.inserted, by rw [hg]; exact h.again, ?_, ?_, ?_⟩
  · intro j x hj
    obtain ⟨hjk, hx⟩ := hsub j x hj
    obtain ⟨f, hf, hunres⟩ := h.unresolved j x hx
    have hne : x.id ≠ id := fun he => hjk (h.alone j k x _ hx hk he)
    exact ⟨f, by rw [hfailed, hf, Option.map_some, if_neg hne], hunres⟩
  · intro i j x y hi hj
    exact h.alone i j x y (hsub i x hi).2 (hsub j y hj).2
  · intro id' hid
    have hid' : id' ∈ s.2.inserted := by rw [hg] at hid; exact hid
    by_cases he : id' = id
    · obtain ⟨f, hf, -⟩ := h.unresolved k _ hk
      left
      rw [he, DB.resolved, hfailed, hf]
      simp
    · have hnot : ∀ events', s.2.hand k ≠ some ⟨id', true, events'⟩ := by
        rintro events' hk'
        obtain ⟨rfl, -⟩ := Letter.mk.inj (Option.some.inj (hk.symm.trans hk'))
        exact he rfl
      rcases h.settled_other hid' hnot with hdone | ⟨j, events', hjk, hj⟩
      · left
        rw [DB.resolved, hfailed]
        simpa [he, DB.resolved] using hdone
      · exact Or.inr ⟨j, events', (hother j hjk).trans hj⟩

/-- A dead letter that is read is stored. -/
theorem run_selectFailed {e : Env} {id : String} {db db' : DB} {f : FailedIngest}
    (h : (Stmt.selectFailed id).run e db = .ok (db', f)) :
    db' = db ∧ db.failed.find id = some f := by
  simp only [Stmt.run] at h
  split at h
  next f' hf =>
    obtain ⟨hdb, hff⟩ := Prod.mk.inj (Except.ok.inj h)
    exact ⟨hdb.symm, by rw [hf, hff]⟩
  next => cases h

/-- Marking changes one dead letter. -/
theorem run_markFailedResolved {e : Env} {id : String} {now : Time} {db db' : DB} {a : Unit}
    (h : (Stmt.markFailedResolved id now).run e db = .ok (db', a)) (id' : String) :
    db'.failed.find id' = (db.failed.find id').map fun f =>
      if id' = id then { f with resolved := true, resolvedAt := some now } else f := by
  rw [← (Prod.mk.inj (Except.ok.inj h)).1]
  refine Table.find_modify db.failed id id' ?_
  exact fun _ => rfl

theorem healthy_failed {q : Stmt} {db db' : DB} {r : Except String (Answer q)}
    (h : Healthy (.sql q) db db' r) :
    ∃ e a, r = .ok a ∧ q.run e db = .ok (db', a) ∧
      db'.failed.rows = q.onFailed e.now db.failed.rows := by
  obtain ⟨hany, a, rfl⟩ := h
  obtain ⟨e, -, hrun⟩ := Answers.accepted hany
  exact ⟨e, a, rfl, hrun, (Stmt.run_rows hrun).2.2⟩

/-- **A guaranteed call keeps the invariant**, and the others keep what they have in hand. -/
theorem OneHand.step {c : Call} {r : Resp c} (h : OneHand s) (hG : Proceeds k c s)
    (hT : Claimed k c s s' r) : OneHand s' ∧ ∀ j, j ≠ k → LetterKept j s s' := by
  obtain ⟨⟨hhealthy, hg⟩, hclaim⟩ := hT
  have hother : ∀ (e : Σ c, Resp c) j, j ≠ k → (s.2.after k s.1 e).hand j = s.2.hand j := by
    intro e j hj
    unfold Retries.after
    split
    · exact Function.update_of_ne hj ..
    · split
      · exact Function.update_of_ne hj ..
      · rfl
    · exact Function.update_of_ne hj ..
    · rfl
  refine ⟨?_, fun j hj => by rw [LetterKept, hg, hother _ j hj]⟩
  cases c with
  | timeNow => exact h.frame (by rw [(answers_timeNow.mp hhealthy.1).1]) hg
  | uuidNew => exact h.frame (by rw [(answers_uuidNew.mp hhealthy.1).1]) hg
  | sql q =>
    obtain ⟨e, a, rfl, hrun, hfailed⟩ := healthy_failed hhealthy
    cases q with
    | selectFailed id =>
      have hfind := (run_selectFailed hrun).2
      refine h.take (Table.ext hfailed) hG hg fun x hx => ?_
      cases hd : decode a.payload with
      | error msg =>
        rw [hd] at hx
        cases hx
      | ok req =>
        rw [hd] at hx
        obtain rfl := Option.some.inj hx
        obtain ⟨hunres, hfree⟩ := hclaim id a req rfl hfind hd
        exact ⟨rfl, ⟨a, hfind, hunres⟩, hfree⟩
    | insertEvents es =>
      obtain ⟨id, hk⟩ := hG
      refine h.insert (Table.ext hfailed) hk ?_
      rw [hg, Retries.after, hk]
    | markFailedResolved id now =>
      obtain ⟨events, hk⟩ := hG
      exact h.mark now hk (run_markFailedResolved hrun) hg
    | insertFailed f => cases hG
    | _ => exact h.frame (Table.ext hfailed) hg

/-- **The events that were added** since `db₀` are those of the inserted dead letters, whose payloads
stay what they were. -/
structure RowsKept (db₀ : DB) (s : DB × Retries) : Prop where
  payloads : ∀ id, s.1.letterEvents id = db₀.letterEvents id
  hands : ∀ k x, s.2.hand k = some x → x.events = db₀.letterEvents x.id
  rows : s.1.events.rows.map ReplayEvent.raw =
    db₀.events.rows.map ReplayEvent.raw ++ s.2.inserted.flatMap db₀.letterEvents

theorem letterEvents_congr {db db' : DB} (h : db'.failed = db.failed) (id : String) :
    db'.letterEvents id = db.letterEvents id := by
  rw [DB.letterEvents, h, DB.letterEvents]

theorem letterEvents_markFailedResolved {e : Env} {db db' : DB} {id : String} {now : Time}
    {a : Answer (.markFailedResolved id now)}
    (hrun : (Stmt.markFailedResolved id now).run e db = .ok (db', a)) (id' : String) :
    db'.letterEvents id' = db.letterEvents id' := by
  rw [DB.letterEvents, run_markFailedResolved hrun, DB.letterEvents]
  cases db.failed.find id' with
  | none => rfl
  | some f =>
    rw [Option.map_some]
    split_ifs <;> rfl

/-- A program takes a dead letter with its events in hand, or leaves one. -/
theorem RowsKept.update {db₀ : DB} (h : RowsKept db₀ s) {hand : Option Letter}
    (hhand : s'.2.hand = Function.update s.2.hand k hand)
    (hown : ∀ x ∈ hand, x.events = db₀.letterEvents x.id)
    (hletters : ∀ id, s'.1.letterEvents id = s.1.letterEvents id)
    (hrows : s'.1.events.rows.map ReplayEvent.raw =
      db₀.events.rows.map ReplayEvent.raw ++ s'.2.inserted.flatMap db₀.letterEvents) :
    RowsKept db₀ s' := by
  obtain ⟨hself, hother⟩ := hand_update hhand
  refine ⟨fun id => (hletters id).trans (h.payloads id), fun j x hj => ?_, hrows⟩
  by_cases hjk : j = k
  · subst hjk
    exact hown x (hself ▸ hj)
  · exact h.hands j x (hother j hjk ▸ hj)

theorem RowsKept.step {db₀ : DB} {c : Call} {r : Resp c} (h : RowsKept db₀ s) (hG : Proceeds k c s)
    (hT : Claimed k c s s' r) : RowsKept db₀ s' := by
  obtain ⟨⟨hhealthy, hg⟩, -⟩ := hT
  have hsame : s'.1.failed = s.1.failed → s'.1.events = s.1.events → s'.2 = s.2 →
      RowsKept db₀ s' := by
    intro hfailed hevents hg
    refine ⟨fun id => ?_, hg ▸ h.hands, by rw [hevents, hg]; exact h.rows⟩
    rw [letterEvents_congr hfailed, h.payloads]
  cases c with
  | timeNow =>
    have hdb := (answers_timeNow.mp hhealthy.1).1
    exact hsame (by rw [hdb]) (by rw [hdb]) hg
  | uuidNew =>
    have hdb := (answers_uuidNew.mp hhealthy.1).1
    exact hsame (by rw [hdb]) (by rw [hdb]) hg
  | sql q =>
    obtain ⟨e, a, rfl, hrun, hfailed⟩ := healthy_failed hhealthy
    have hevents := (Stmt.run_rows hrun).2.1
    cases q with
    | selectFailed id =>
      have hfind := (run_selectFailed hrun).2
      refine h.update (congrArg Retries.hand hg) (fun x hx => ?_)
        (letterEvents_congr (Table.ext hfailed)) ?_
      · cases hd : decode a.payload with
        | error msg => simp [hd] at hx
        | ok req =>
          rw [hd] at hx
          obtain rfl := Option.some.inj hx
          rw [← h.payloads id, DB.letterEvents, hfind]
          simp [FailedIngest.events, hd]
      · rw [Table.ext hevents, hg]
        exact h.rows
    | insertEvents es =>
      obtain ⟨id, hk⟩ := hG
      have hid : es.map ReplayEvent.raw = db₀.letterEvents id := h.hands k _ hk
      rw [Retries.after, hk] at hg
      refine h.update (congrArg Retries.hand hg) (fun x hx => ?_)
        (letterEvents_congr (Table.ext hfailed)) ?_
      · obtain rfl := Option.some.inj hx
        exact hid
      · rw [hevents, hg]
        simp only [Stmt.onEvents, List.map_append, h.rows, List.flatMap_append,
          List.flatMap_singleton, hid, List.append_assoc]
    | markFailedResolved id now =>
      refine h.update (congrArg Retries.hand hg) (fun x hx => by cases hx)
        (letterEvents_markFailedResolved hrun) ?_
      rw [Table.ext hevents, hg]
      exact h.rows
    | insertFailed f => cases hG
    | deleteSession id => cases hG
    | purgeSessions ids => cases hG
    | _ => exact hsame (Table.ext hfailed) (Table.ext hevents) hg

end Invariant

/-! ## Programs -/

section Programs

/-- Whatever the other programs do, the calls of the method keep the guarantee, and it returns with
`Q`. -/
abbrev Retrying (k : ℕ) {α : Type} (Q : Except String α → DB × Retries → Prop) (x : Svc α)
    (s : DB × Retries) : Prop :=
  Always (Claimed k) (LetterKept k) (Proceeds k) Q x.run s

variable {k : ℕ} {s : DB × Retries} {hand : Option Letter}

theorem retrying_timeNow (h : s.2.hand k = hand) :
    Retrying k (Succeeds fun _ s => s.2.hand k = hand) timeNow s := by
  refine Always.lift_succeeds (always_perform fun s₁ h₁ => ⟨trivial, fun s₂ r hT s₃ h₃ => ?_⟩)
  rw [h₃, hT.1.2, ← h, ← h₁]
  rfl

theorem retrying_uuidNew (h : s.2.hand k = hand) :
    Retrying k (Succeeds fun _ s => s.2.hand k = hand) uuidNew s := by
  refine Always.lift_succeeds (always_perform fun s₁ h₁ => ⟨trivial, fun s₂ r hT s₃ h₃ => ?_⟩)
  rw [h₃, hT.1.2, ← h, ← h₁]
  rfl

/-- A statement, with what it does to the hand of its program. -/
theorem retrying_perform {q : Stmt} {hand' : Answer q → Option Letter}
    (hG : ∀ s₁ : DB × Retries, s₁.2.hand k = hand → Proceeds k (.sql q) s₁)
    (hafter : ∀ (s₁ : DB × Retries) a, s₁.2.hand k = hand →
      (s₁.2.after k s₁.1 ⟨.sql q, .ok a⟩).hand k = hand' a) (h : s.2.hand k = hand) :
    Retrying k (Succeeds fun a s => s.2.hand k = hand' a) (sql q) s := by
  refine always_perform fun s₁ h₁ => ⟨hG s₁ (h₁.trans h), fun s₂ r hT s₃ h₃ => ?_⟩
  obtain ⟨a, rfl⟩ := hT.1.1.2
  have hhand : s₂.2.hand k = hand' a := by
    rw [hT.1.2]
    exact hafter s₁ a (h₁.trans h)
  exact ⟨a, rfl, h₃.trans hhand⟩

theorem retrying_sql {q : Stmt} (hq : q.keepsLetter = true) (h : s.2.hand k = hand) :
    Retrying k (Succeeds fun _ s => s.2.hand k = hand) (sql q) s := by
  refine retrying_perform (fun s₁ _ => ?_) (fun s₁ a h₁ => ?_) h
  · cases q <;> first | exact hq | cases hq
  · rw [← h₁]
    cases q <;> first | rfl | cases hq

theorem retrying_upsertSession (row : ReplaySession) (h : s.2.hand k = hand) :
    Retrying k (Succeeds fun _ s => s.2.hand k = hand) (Repository.upsertSession row) s := by
  refine (retrying_sql rfl h).bind_succeeds fun affected s₁ h₁ => ?_
  split_ifs
  · exact retrying_sql rfl h₁
  · exact fun s₂ h₂ => ⟨(), rfl, h₂.trans h₁⟩

theorem retrying_persistToken (req : IngestRequest) (h : s.2.hand k = hand) :
    Retrying k (Succeeds fun _ s => s.2.hand k = hand) (Service.persistToken req) s := by
  unfold Service.persistToken
  split_ifs
  · exact (retrying_sql rfl h).adapt_succeeds _
  · exact fun s₂ h₂ => ⟨(), rfl, h₂.trans h⟩

theorem retrying_storeClient (req : IngestRequest) (h : s.2.hand k = hand) :
    Retrying k (Succeeds fun _ s => s.2.hand k = hand) (Service.storeClient req) s := by
  unfold Service.storeClient
  split
  · exact (retrying_sql rfl h).adapt_succeeds _
  · exact fun s₂ h₂ => ⟨(), rfl, h₂.trans h⟩

/-- `Ingest` inserts the events of the dead letter in hand. -/
theorem retrying_ingest (req : IngestRequest) {id : String}
    (h : s.2.hand k = some ⟨id, false, req.events⟩) :
    Retrying k (Succeeds fun _ s => s.2.hand k = some ⟨id, true, req.events⟩)
      (Service.ingest req) s := by
  refine (retrying_timeNow h).bind_succeeds fun now s₁ h₁ => ?_
  refine ((retrying_upsertSession _ h₁).adapt_succeeds _).bind_succeeds fun _ s₂ h₂ => ?_
  refine (retrying_persistToken req h₂).bind_succeeds fun _ s₃ h₃ => ?_
  refine (retrying_storeClient req h₃).bind_succeeds fun _ s₄ h₄ => ?_
  refine (retrying_uuidNew h₄).bind_succeeds fun ids s₅ h₅ => ?_
  have hinsert : Retrying k (Succeeds fun _ s => s.2.hand k = some ⟨id, true, req.events⟩)
      (Repository.insertEvents (Service.eventsOf req now ids)) s₅ := by
    refine retrying_perform (fun s₆ h₆ => ⟨id, ?_⟩) (fun s₆ a h₆ => ?_) h₅
    · rw [map_raw_eventsOf]
      exact h₆
    rw [Retries.after, h₆]
    exact Function.update_self ..
  refine (hinsert.adapt_succeeds _).bind_succeeds fun _ s₆ h₆ => ?_
  exact retrying_sql rfl h₆

/-- A retry starts and ends with empty hands. -/
theorem retrying_retryFailed (id : String) (h : s.2.hand k = none) :
    Retrying k (fun _ s => s.2.hand k = none) (Service.retryFailed id) s := by
  have hselect : Retrying k (Succeeds fun f s => s.2.hand k = match decode f.payload with
      | .ok req => some ⟨id, false, req.events⟩
      | .error _ => none) (Repository.getFailed id) s :=
    retrying_perform (fun s₁ h₁ => h₁) (fun s₁ f _ => Function.update_self ..) h
  refine (hselect.adapt_succeeds _).bind_succeeds fun f s₁ h₁ => ?_
  cases hd : decode f.payload with
  | error msg =>
    rw [hd] at h₁
    exact fun s₂ h₂ => h₂.trans h₁
  | ok req =>
    rw [hd] at h₁
    refine ((retrying_ingest req h₁).adapt_succeeds _).bind_succeeds fun _ s₂ h₂ => ?_
    refine (retrying_timeNow h₂).bind_succeeds fun now s₃ h₃ => ?_
    have hmark : Retrying k (Succeeds fun _ s => s.2.hand k = none)
        (sql (.markFailedResolved id now)) s₃ :=
      retrying_perform (fun s₄ h₄ => ⟨_, h₄⟩) (fun s₄ _ _ => Function.update_self ..) h₃
    refine hmark.imp fun r s₄ hr => ?_
    obtain ⟨_, -, h₄⟩ := hr
    exact h₄

theorem retrying_retryEach (items : List FailedIngest) (succeeded : ℕ) (h : s.2.hand k = none) :
    Retrying k (fun _ s => s.2.hand k = none) (Service.retryEach items succeeded) s := by
  induction items generalizing succeeded s with
  | nil => exact fun s₁ h₁ => h₁.trans h
  | cons f items ih =>
    refine (retrying_retryFailed f.id h).lift_succeeds.bind_succeeds fun r s₁ h₁ => ?_
    cases r with
    | ok _ => exact ih _ h₁
    | error _ => exact ih _ h₁

/-- The calls that retry dead letters. -/
def ServiceCall.retries : ServiceCall → Bool
  | .retryFailed _ | .retryAllFailed => true
  | _ => false

theorem retrying_program {c : ServiceCall} (hc : c.retries = true) (h : s.2.hand k = none) :
    Always (Claimed k) (LetterKept k) (Proceeds k) (fun _ _ => True) c.program s := by
  cases c with
  | retryFailed id => exact (retrying_retryFailed id h).imp fun _ _ _ => trivial
  | retryAllFailed =>
    have hall : Retrying k (fun _ _ => True) Service.retryAllFailed s := by
      refine (retrying_sql rfl h).bind_succeeds fun items s₁ h₁ => ?_
      exact (retrying_retryEach items 0 h₁).imp fun _ _ _ => trivial
    refine always_bind hall fun r s₁ _ => ?_
    cases r with
    | ok _ => exact fun _ _ => trivial
    | error _ => exact fun _ _ => trivial
  | _ => cases hc

end Programs

/-! ## Interleavings -/

section Interleavings

/-- **A dead letter is retried once.** In every interleaving of retries in which a dead letter is
read only while it is unresolved and in nobody's hand, the events of no dead letter are inserted
twice, and none is inserted when it is resolved. The events that were added are those of the dead
letters that were inserted. -/
theorem retried_once {calls : List ServiceCall} (hcalls : ∀ c ∈ calls, c.retries = true)
    {db₀ db : DB} {ps : Pool ℕ Call Resp (Except String Unit)} {g : Retries}
    (hruns : PoolRuns Claimed (numberedPool calls, (db₀, {})) (ps, (db, g))) :
    g.inserted.Nodup ∧ g.again = [] ∧ db.events.rows.map ReplayEvent.raw =
      db₀.events.rows.map ReplayEvent.raw ++ g.inserted.flatMap db₀.letterEvents := by
  have hinit : OneHand (db₀, {}) := by
    refine ⟨List.nodup_nil, rfl, fun _ _ h => ?_, fun _ _ _ _ h => ?_, fun _ h => ?_⟩ <;> cases h
  have hprog : ∀ p ∈ numberedPool calls, Always (Claimed p.1) (LetterKept p.1) (Proceeds p.1)
      (fun _ _ => True) p.2 (db₀, {}) := by
    intro p hp
    obtain ⟨⟨c, i⟩, hc, rfl⟩ := List.mem_map.mp hp
    exact retrying_program (hcalls c (List.fst_mem_of_mem_zipIdx hc)) rfl
  have hrows : RowsKept db₀ (db₀, {}) :=
    ⟨fun _ => rfl, fun _ _ h => (by cases h), (List.append_nil _).symm⟩
  have hstep : ∀ k c s s' r, OneHand s ∧ RowsKept db₀ s → Proceeds k c s → Claimed k c s s' r →
      (OneHand s' ∧ RowsKept db₀ s') ∧ ∀ j, j ≠ k → LetterKept j s s' := by
    rintro k c s s' r ⟨hhand, hkept⟩ hG hT
    obtain ⟨hhand', hothers⟩ := hhand.step hG hT
    exact ⟨⟨hhand', hkept.step hG hT⟩, hothers⟩
  obtain ⟨⟨hend, hkept⟩, -⟩ := hruns.invariant_labels (Q := fun _ _ _ => True) hstep
    (nodup_numberedPool calls) ⟨hinit, hrows⟩ hprog
  exact ⟨hend.inserted, hend.again, hkept.rows⟩

end Interleavings

/-! ## Samples -/

section Samples

/-- A dead letter with a batch of one event. -/
def sampleLetter : FailedIngest :=
  { id := "letter", sessionID := sampleID, payload := encode sampleBatch, error := "",
    retryCount := 4 }

/-- A database with that dead letter alone. -/
def letterDB : DB :=
  ((Service.saveFailed sampleLetter).run.eval (exec (.quiet none 0 fun _ => "")) DB.empty).1

/-- A call that is not refused, recorded. -/
def execRecorded (k : ℕ) (e : Env) (c : Call) (s : DB × Retries) :
    Option ((DB × Retries) × Resp c) :=
  (execHealthy e c s.1).map fun x => ((x.1, s.2.after k s.1 ⟨c, x.2⟩), x.2)

theorem execRecorded_recorded {k : ℕ} {e : Env} {c : Call} {s s' : DB × Retries} {r : Resp c}
    (h : execRecorded k e c s = some (s', r)) : Recorded k c s s' r := by
  obtain ⟨⟨db', r'⟩, hexec, he⟩ := Option.map_eq_some_iff.mp h
  obtain ⟨rfl, rfl⟩ := Prod.mk.inj he
  exact ⟨execHealthy_healthy hexec, rfl⟩

/-- The same for calls that read no dead letter. -/
def execOther (k : ℕ) (e : Env) (c : Call) (s : DB × Retries) : Option ((DB × Retries) × Resp c) :=
  match c with
  | .sql (.selectFailed _) => none
  | c => execRecorded k e c s

theorem execOther_claimed {k : ℕ} {e : Env} {c : Call} {s s' : DB × Retries} {r : Resp c}
    (h : execOther k e c s = some (s', r)) : Claimed k c s s' r := by
  unfold execOther at h
  split at h
  next => cases h
  next hc =>
    refine ⟨execRecorded_recorded h, ?_⟩
    rintro id f req rfl
    exact absurd rfl (hc id)

/-- A dead letter that one program retries and the list of the other leaves out. -/
theorem retried_once_letter : ∃ ps db g, PoolRuns Claimed
    (numberedPool [.retryFailed "letter", .retryAllFailed], (letterDB, {})) (ps, (db, g)) ∧
    g.inserted = ["letter"] ∧ g.inserted.Nodup ∧ g.again = [] ∧
      db.events.rows.map ReplayEvent.raw = [⟨4, .obj [], 1⟩] := by
  let e : Env := .quiet none 0 fun _ => sampleEventID false
  -- all hands are empty when the dead letter is read
  have hread : Claimed 0 (.sql (.selectFailed "letter")) (letterDB, {})
      (letterDB, Retries.after 0 letterDB {} ⟨.sql (.selectFailed "letter"), .ok sampleLetter⟩)
      (.ok sampleLetter) := by
    refine ⟨⟨⟨⟨e, trivial, rfl⟩, _, rfl⟩, rfl⟩, ?_⟩
    rintro id f req hc hf -
    cases hc
    exact ⟨by rw [← Option.some.inj hf]; rfl, fun j h hj => by cases hj⟩
  obtain ⟨ps₁, hstep, hfollow⟩ : ∃ ps₁, PoolStep Claimed
      (numberedPool [.retryFailed "letter", .retryAllFailed], (letterDB, {}))
      (0, ⟨.sql (.selectFailed "letter"), .ok sampleLetter⟩) (ps₁, (letterDB, Retries.after 0
        letterDB {} ⟨.sql (.selectFailed "letter"), .ok sampleLetter⟩)) ∧
      (Pool.follow execOther (List.replicate 8 (0, e) ++ [(1, e)]) (ps₁, (letterDB, Retries.after 0
        letterDB {} ⟨.sql (.selectFailed "letter"), .ok sampleLetter⟩))).map
          (fun x => x.2.2.inserted) = some ["letter"] :=
    ⟨_, PoolStep.call [] _ 0 _ _ _ _ _ hread, by decide +kernel⟩
  obtain ⟨⟨ps, db, g⟩, hrun, hins⟩ := Option.map_eq_some_iff.mp hfollow
  have hruns : PoolRuns Claimed (numberedPool [.retryFailed "letter", .retryAllFailed],
      (letterDB, {})) (ps, (db, g)) :=
    Relation.ReflTransGen.head ⟨_, hstep⟩
      (Pool.follow_runs (T := Claimed) (fun _ _ _ _ _ _ h => execOther_claimed h) hrun)
  obtain ⟨hnodup, hagain, hrows⟩ := retried_once (by simp [ServiceCall.retries]) hruns
  refine ⟨ps, db, g, hruns, hins, hnodup, hagain, hrows.trans ?_⟩
  have hletter : letterDB.letterEvents "letter" = sampleBatch.events := by
    show FailedIngest.events sampleLetter = _
    simp [FailedIngest.events, sampleLetter, decode_encode]
  rw [show g.inserted = ["letter"] from hins, List.flatMap_singleton, hletter]
  rfl

/-- A dead letter that is retried a second time after it was resolved. -/
theorem not_retried_once : ¬ ∀ calls db₀ db ps g, (∀ c ∈ calls, ServiceCall.retries c = true) →
    PoolRuns Recorded (numberedPool calls, (db₀, {})) (ps, (db, g)) →
    g.inserted.Nodup ∧ g.again = [] := by
  intro hall
  let e (late : Bool) : Env := .quiet none 0 fun _ => sampleEventID late
  have hfollow : (Pool.follow execRecorded
      (List.replicate 9 (0, e false) ++ List.replicate 8 (1, e true))
      (numberedPool [.retryFailed "letter", .retryFailed "letter"], (letterDB, {}))).map
        (fun x => x.2.2.inserted) = some ["letter", "letter"] := by decide +kernel
  obtain ⟨⟨ps, db, g⟩, hrun, hins⟩ := Option.map_eq_some_iff.mp hfollow
  have hruns := Pool.follow_runs (T := Recorded)
    (fun _ _ _ _ _ _ h => execRecorded_recorded h) hrun
  have hnodup := (hall _ letterDB db ps g (by simp [ServiceCall.retries]) hruns).1
  rw [show g.inserted = ["letter", "letter"] from hins] at hnodup
  exact absurd hnodup (by decide)

end Samples

end BatRewind
