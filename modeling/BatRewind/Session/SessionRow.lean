import BatRewind.Session.Service

/-!
# The session row of a batch

What the statements of `ingest` make of the row of its session.

* `storedRow req now old`: the row after the batch, from the row before it, if any.
* `Kept`: a row that an unfinished attempt may leave; **`Kept.preparedRow_eq`**: a later attempt
  overwrites what it left.
-/

namespace BatRewind

open Encoding Tables

open Service

/-- The row that `Save` leaves of the stored row, if any. -/
def saveRow (s : ReplaySession) : Option ReplaySession → ReplaySession
  | some r => overwrite s r
  | none => inserted s

/-- The row with the share token of the batch. -/
def tokenRow (req : IngestRequest) (r : ReplaySession) : ReplaySession :=
  if req.shareToken ≠ "" then { r with shareToken := some req.shareToken } else r

/-- The row with the device columns of the batch. -/
def clientRow (req : IngestRequest) (r : ReplaySession) : ReplaySession :=
  match req.client with
  | some c => { r with device :=
      Repository.clientColumns c.sanitized (parseUserAgent c.sanitized.userAgent) }
  | none => r

/-- The row of the session when the events of the batch are inserted. -/
def preparedRow (req : IngestRequest) (now : Time) (old : Option ReplaySession) : ReplaySession :=
  clientRow req (tokenRow req (saveRow (sessionOf req now) old))

/-- **The row of the session after the batch.** -/
def storedRow (req : IngestRequest) (now : Time) (old : Option ReplaySession) : ReplaySession :=
  { preparedRow req now old with eventCount := req.events.length }

/-- `row` holds what the batch does not set itself as `old` had it. -/
def Kept (req : IngestRequest) (old : Option ReplaySession) (row : ReplaySession) : Prop :=
  row.id = req.sessionID ∧
    (req.shareToken = "" → row.shareToken = old.bind ReplaySession.shareToken) ∧
    (req.client = none → row.device = old.elim {} ReplaySession.device)

theorem eventsOf_sessionID {req : IngestRequest} {now : Time} {ids : ℕ → String} {ev : ReplayEvent}
    (h : ev ∈ Service.eventsOf req now ids) : ev.sessionID = req.sessionID := by
  obtain ⟨i, hi, rfl⟩ := List.mem_mapIdx.mp h
  rfl

variable {req : IngestRequest} {now : Time} {old : Option ReplaySession}

@[simp] theorem tokenRow_id (r : ReplaySession) : (tokenRow req r).id = r.id := by
  unfold tokenRow
  split_ifs <;> rfl

@[simp] theorem tokenRow_startedAt (r : ReplaySession) :
    (tokenRow req r).startedAt = r.startedAt := by
  unfold tokenRow
  split_ifs <;> rfl

@[simp] theorem tokenRow_eventCount (r : ReplaySession) :
    (tokenRow req r).eventCount = r.eventCount := by
  unfold tokenRow
  split_ifs <;> rfl

@[simp] theorem clientRow_id (r : ReplaySession) : (clientRow req r).id = r.id := by
  unfold clientRow
  split <;> rfl

@[simp] theorem clientRow_startedAt (r : ReplaySession) :
    (clientRow req r).startedAt = r.startedAt := by
  unfold clientRow
  split <;> rfl

@[simp] theorem clientRow_eventCount (r : ReplaySession) :
    (clientRow req r).eventCount = r.eventCount := by
  unfold clientRow
  split <;> rfl

@[simp] theorem saveRow_startedAt (s : ReplaySession) : (saveRow s old).startedAt = s.startedAt := by
  cases old <;> rfl

@[simp] theorem saveRow_eventCount (s : ReplaySession) :
    (saveRow s old).eventCount = s.eventCount := by
  cases old <;> rfl

/-- The upsert starts the count of events again from zero. -/
@[simp] theorem preparedRow_eventCount : (preparedRow req now old).eventCount = 0 := by
  rw [preparedRow, clientRow_eventCount, tokenRow_eventCount, saveRow_eventCount]
  rfl

@[simp] theorem clientRow_shareToken (r : ReplaySession) :
    (clientRow req r).shareToken = r.shareToken := by
  unfold clientRow
  split <;> rfl

theorem preparedRow_shareToken (h : req.shareToken ≠ "") :
    (preparedRow req now old).shareToken = some req.shareToken := by
  rw [preparedRow, clientRow_shareToken, tokenRow, if_pos h]

/-- `Save` keeps the omitted columns. -/
theorem saveRow_eq (h : ∀ r ∈ old, r.id = req.sessionID) :
    saveRow (sessionOf req now) old = { sessionOf req now with
      shareToken := old.bind ReplaySession.shareToken, device := old.elim {} ReplaySession.device } := by
  cases old with
  | none => rfl
  | some r => simp only [saveRow, overwrite, sessionOf, h r rfl, Option.bind_some, Option.elim_some]

theorem kept_saveRow (now : Time) (h : ∀ r ∈ old, r.id = req.sessionID) :
    Kept req old (saveRow (sessionOf req now) old) := by
  cases old with
  | none => exact ⟨rfl, fun _ => rfl, fun _ => rfl⟩
  | some r => exact ⟨h r rfl, fun _ => rfl, fun _ => rfl⟩

theorem Kept.tokenRow {row : ReplaySession} (h : Kept req old row) :
    Kept req old (tokenRow req row) := by
  unfold BatRewind.tokenRow
  split_ifs with hs
  · exact ⟨h.1, fun h₀ => absurd h₀ hs, h.2.2⟩
  · exact h

theorem Kept.clientRow {row : ReplaySession} (h : Kept req old row) :
    Kept req old (clientRow req row) := by
  unfold BatRewind.clientRow
  split
  next c hc => exact ⟨h.1, h.2.1, fun h₀ => by rw [h₀] at hc; cases hc⟩
  next => exact h

theorem find_id (db : DB) (id : String) : ∀ r ∈ db.sessions.find id, r.id = id :=
  fun _ h => (Table.find_eq_some.mp h).2

@[simp] theorem preparedRow_id {db : DB} :
    (preparedRow req now (db.sessions.find req.sessionID)).id = req.sessionID := by
  rw [preparedRow, clientRow_id, tokenRow_id]
  exact (kept_saveRow now (find_id db _)).1

theorem kept_preparedRow (db : DB) :
    Kept req (db.sessions.find req.sessionID)
      (preparedRow req now (db.sessions.find req.sessionID)) :=
  (kept_saveRow now (find_id db _)).tokenRow.clientRow

@[simp] theorem preparedRow_startedAt : (preparedRow req now old).startedAt = now := by
  rw [preparedRow, clientRow_startedAt, tokenRow_startedAt, saveRow_startedAt]
  rfl

/-- **Absorption.** What an earlier attempt left in the row does not show in the row of a later
one. -/
theorem Kept.preparedRow_eq {row : ReplaySession} (h : Kept req old row)
    (hold : ∀ r ∈ old, r.id = req.sessionID) :
    preparedRow req now (some row) = preparedRow req now old := by
  obtain ⟨hid, htok, hdev⟩ := h
  have hrow : ∀ r ∈ some row, r.id = req.sessionID := by
    rintro r ⟨⟩
    exact hid
  unfold preparedRow
  rw [saveRow_eq hrow, saveRow_eq hold, Option.bind_some, Option.elim_some]
  unfold BatRewind.tokenRow BatRewind.clientRow
  by_cases hs : req.shareToken = ""
  · rw [htok hs]
    cases hc : req.client with
    | none => rw [hdev hc]
    | some c => simp [hs]
  · cases hc : req.client with
    | none => rw [hdev hc]; simp [hs]
    | some c => simp [hs]

end BatRewind
