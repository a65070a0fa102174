import BatRewind.Lib.JsonStringify
import BatRewind.Lib.Renewal
import BatRewind.Sdk.Session

/-!
# Session handles over time

`getOrCreateSession` of `packages/browser/src/session.ts` on the text of the storage entry. What
`JSON.parse` returns may be any value; the text of a number and the number of a string are the
parameters `num` and `strNumber`.

* `SessionStorage.getOrCreateSession`: the code; an exception falls through to a new session.
* `text`, `jsonParse_text`: the entries that the code writes, and that they are read back.
* `Represents`, **`getOrCreateSession_represents`**: on these, and where there is no entry or one
  that cannot be parsed, the code does what `Sdk.getOrCreateSession` does.
* `handles`, `sessions_eq_values`: the handles of a sequence of calls are kept or renewed.
* **`handles_window`**: two calls return the same id exactly if each gap between them is shorter
  than `SESSION_TTL_MS`, and then the same share token.
-/

namespace BatRewind

namespace Sdk

open Script

/-- What a call returns. -/
structure Handle where
  id : Value
  shareToken : Value

namespace SessionStorage

/-! ## The code -/

section Code

variable (strNumber : Units → Option ℚ) (num : ℚ → Units)

/-- The operator `||`. -/
def orTruthy (v : Option Value) (w : Value) : Value := if truthy v then v.getD w else w

/-- `JSON.stringify({ id, shareToken, expiresAt })`. -/
def entryText (handle : Handle) (expiresAt : ℤ) : Units :=
  stringify num (.obj [(units "id", handle.id), (units "shareToken", handle.shareToken),
    (units "expiresAt", .num expiresAt)])

/-- The first `try` block. -/
def reuseSession (browser : Browser) (raw : Option Units) : Option (Handle × Units) :=
  match browser.getItem, raw with
  | false, _ | _, none | _, some [] => none
  | true, some raw =>
    match jsonParse raw with
    | none => none
    | some stored =>
      match access (some stored) (units "expiresAt") >>= toNumber strNumber num with
      | .error _ | .ok none => none
      | .ok (some expiresAt) =>
        if browser.now < expiresAt ∧ truthy (stored.get (units "id")) ∧ browser.setItem then
          let handle : Handle := {
            id := (stored.get (units "id")).getD .null
            shareToken := orTruthy (stored.get (units "shareToken"))
              (.str (units browser.newToken.text)) }
          some (handle, entryText num handle (browser.nowStored + SESSION_TTL_MS))
        else none

/-- **The handle of a call**, and the entry afterwards. -/
def getOrCreateSession (browser : Browser) (raw : Option Units) : Handle × Option Units :=
  match reuseSession strNumber num browser raw with
  | some (handle, text) => (handle, some text)
  | none =>
    let handle : Handle :=
      ⟨.str (units browser.newID.text), .str (units browser.newToken.text)⟩
    (handle, if browser.setItemNew then
      some (entryText num handle (browser.nowStored + SESSION_TTL_MS))
    else raw)

/-- **The handles of a sequence of calls.** -/
def handles : Option Units → List Browser → List Handle
  | _, [] => []
  | raw, browser :: calls =>
    let r := getOrCreateSession strNumber num browser raw
    r.1 :: handles r.2 calls

end Code

/-! ## Entries -/

section Entries

variable {strNumber : Units → Option ℚ} {num : ℚ → Units}

/-- The entries of a stored session. -/
def entries (st : StoredSession) : List (Units × Value) :=
  (units "id", .str (units st.id)) ::
    ((st.shareToken.map fun t => (units "shareToken", Value.str (units t))).toList ++
      [(units "expiresAt", .num st.expiresAt)])

/-- The text of a stored session. -/
def text (num : ℚ → Units) (st : StoredSession) : Units := stringify num (.obj (entries st))

theorem readsValue_str (s : Units) : ReadsValue (stringify num (.str s)) (.str s) :=
  readsValue_string (reads_quoteUnits s)

/-- **A stored session is read back.** -/
theorem jsonParse_text (hnum : ∀ z : ℤ, ReadsValue (num z) (.num z)) (st : StoredSession) :
    jsonParse (text num st) = some (.obj (entries st)) := by
  refine jsonParse_stringify _ _ (fun e he => ?_) ?_
  · simp only [List.mem_cons, List.mem_append, Option.mem_toList, Option.map_eq_some_iff,
      List.not_mem_nil, or_false] at he
    rcases he with rfl | ⟨t, -, rfl⟩ | rfl
    · exact readsValue_str _
    · exact readsValue_str _
    · exact hnum st.expiresAt
  · cases st.shareToken <;> simp <;> decide

theorem get_entries (st : StoredSession) :
    (Value.obj (entries st)).get (units "id") = some (.str (units st.id)) ∧
      (Value.obj (entries st)).get (units "shareToken") =
        (st.shareToken.map fun t => .str (units t)) ∧
      (Value.obj (entries st)).get (units "expiresAt") = some (.num st.expiresAt) := by
  have hid : units "shareToken" ≠ units "id" ∧ units "id" ≠ units "shareToken" := by decide
  have hexpires : units "id" ≠ units "expiresAt" ∧ units "shareToken" ≠ units "expiresAt" ∧
      units "expiresAt" ≠ units "shareToken" := by decide
  cases htoken : st.shareToken <;> simp [entries, Value.get, htoken, hid.2, hexpires]

end Entries

/-! ## Simulation -/

section Simulation

variable {strNumber : Units → Option ℚ} {num : ℚ → Units} {raw : Option Units}
  {storage : Option StoredSession}

/-- The handle as values. -/
def valuesOf (h : SessionHandle) : Handle := ⟨.str (units h.id), .str (units h.shareToken)⟩

/-- **An entry of the storage**: a stored session, none, or one that cannot be parsed. -/
def Represents (num : ℚ → Units) (raw : Option Units) (storage : Option StoredSession) : Prop :=
  raw = storage.map (text num) ∨ storage = none ∧ ∃ s, raw = some s ∧ jsonParse s = none

theorem truthy_str (s : String) : truthy (some (.str (units s))) = true ↔ s ≠ "" := by
  constructor
  · rintro h rfl
    exact absurd h (by decide)
  · intro hs
    exact decide_eq_true (units_ne_nil hs)

theorem orTruthy_shareToken (shareToken : Option String) (generated : RandomUUID) :
    orTruthy (shareToken.map fun t => .str (units t)) (.str (units generated.text)) =
      .str (units (orGenerated shareToken generated).1) := by
  cases shareToken with
  | none => rfl
  | some t =>
    by_cases ht : t = ""
    · subst ht
      rfl
    · have htruthy : truthy (some (.str (units t))) = true := (truthy_str t).mpr ht
      simp [orTruthy, htruthy, orGenerated, ht]

/-- **A stored session is reused** as on the parsed entry. -/
theorem reuseSession_text (hnum : ∀ z : ℤ, ReadsValue (num z) (.num z)) (browser : Browser)
    (st : StoredSession) : reuseSession strNumber num browser (some (text num st)) =
      (Sdk.reuseSession browser (some st)).map fun r => (valuesOf r.1, text num r.2) := by
  obtain ⟨hid, htoken, hexpires⟩ := get_entries st
  obtain ⟨u, s, hs⟩ : ∃ u s, text num st = u :: s := ⟨0x7b, _, rfl⟩
  have hparse := jsonParse_text hnum st
  have hnumber : access (some (Value.obj (entries st))) (units "expiresAt") >>=
      toNumber strNumber num = .ok (some (st.expiresAt : ℚ)) := by
    change Except.ok ((Value.obj (entries st)).get (units "expiresAt")) >>= _ = _
    rw [hexpires]
    rfl
  have hnow : (browser.now : ℚ) < st.expiresAt ↔ browser.now < st.expiresAt := Int.cast_lt
  unfold reuseSession Sdk.reuseSession
  rw [hs] at hparse ⊢
  cases hget : browser.getItem with
  | false =>
    dsimp only
    split_ifs with hne hcond
    · exact absurd hcond (by simp)
    · rfl
    · rfl
  | true =>
    dsimp only
    rw [hparse]
    dsimp only
    rw [hnumber]
    dsimp only
    rw [hid, htoken, orTruthy_shareToken]
    by_cases hne : st.id = ""
    · rw [dif_neg (not_not.mpr hne), if_neg]
      · rfl
      · rintro ⟨-, htruthy, -⟩
        exact (truthy_str _).mp htruthy hne
    · rw [dif_pos hne]
      by_cases hcond : browser.now < st.expiresAt ∧ browser.setItem = true
      · rw [if_pos ⟨hnow.mpr hcond.1, (truthy_str _).mpr hne, hcond.2⟩, if_pos (by simp [hcond])]
        rfl
      · rw [if_neg fun h => hcond ⟨hnow.mp h.1, h.2.2⟩, if_neg (by simpa using hcond)]
        rfl

/-- Without a stored session there is nothing to reuse. -/
theorem reuseSession_none (browser : Browser) (h : Represents num raw none) :
    reuseSession strNumber num browser raw = none := by
  unfold reuseSession
  rcases h with rfl | ⟨-, s, rfl, hparse⟩
  · cases browser.getItem <;> rfl
  · cases browser.getItem with
    | false => rfl
    | true =>
      cases s with
      | nil => rfl
      | cons u s =>
        dsimp only
        rw [hparse]

/-- **The code does what it does on the parsed entry.** -/
theorem getOrCreateSession_represents (hnum : ∀ z : ℤ, ReadsValue (num z) (.num z))
    (browser : Browser) (h : Represents num raw storage) :
    (getOrCreateSession strNumber num browser raw).1 =
        valuesOf (Sdk.getOrCreateSession browser storage).1 ∧
      Represents num (getOrCreateSession strNumber num browser raw).2
        (Sdk.getOrCreateSession browser storage).2 := by
  have hreuse : reuseSession strNumber num browser raw =
      (Sdk.reuseSession browser storage).map fun r => (valuesOf r.1, text num r.2) := by
    cases storage with
    | none => exact reuseSession_none browser h
    | some st =>
      obtain rfl : raw = some (text num st) := h.resolve_right fun hnone => by cases hnone.1
      exact reuseSession_text hnum browser st
  unfold getOrCreateSession Sdk.getOrCreateSession
  rw [hreuse]
  cases Sdk.reuseSession browser storage with
  | some r => exact ⟨rfl, Or.inl rfl⟩
  | none =>
    refine ⟨rfl, ?_⟩
    dsimp only [Option.map_none]
    split_ifs
    · exact Or.inl rfl
    · exact h

end Simulation

/-! ## Sequences of calls -/

section Calls

variable {strNumber : Units → Option ℚ} {num : ℚ → Units} {browser : Browser}
  {calls : List Browser} {storage : Option StoredSession}

/-- The handles of a sequence of calls, on the parsed entry. -/
def sessions : Option StoredSession → List Browser → List SessionHandle
  | _, [] => []
  | storage, browser :: calls =>
    let r := Sdk.getOrCreateSession browser storage
    r.1 :: sessions r.2 calls

theorem handles_eq (hnum : ∀ z : ℤ, ReadsValue (num z) (.num z)) (calls : List Browser)
    {raw : Option Units} {storage : Option StoredSession} (h : Represents num raw storage) :
    handles strNumber num raw calls = (sessions storage calls).map valuesOf := by
  induction calls generalizing raw storage with
  | nil => rfl
  | cons browser calls ih =>
    have hhandle : (getOrCreateSession strNumber num browser raw).1 = _ :=
      (getOrCreateSession_represents hnum browser h).1
    have hentry : Represents num (getOrCreateSession strNumber num browser raw).2 _ :=
      (getOrCreateSession_represents hnum browser h).2
    rw [handles, sessions, List.map_cons]
    exact congrArg₂ List.cons hhandle (ih hentry)

/-- The storage can be read and written. -/
structure Works (browser : Browser) : Prop where
  getItem : browser.getItem = true
  setItem : browser.setItem = true
  setItemNew : browser.setItemNew = true

theorem newID_ne_empty (browser : Browser) : browser.newID.text ≠ "" :=
  browser.newID.canonical.ne_empty

theorem newToken_ne_empty (browser : Browser) : browser.newToken.text ≠ "" :=
  browser.newToken.canonical.ne_empty

/-- A new session. -/
def freshHandle (browser : Browser) : SessionHandle :=
  ⟨browser.newID.text, browser.newToken.text, newID_ne_empty browser, newToken_ne_empty browser⟩

/-- What a call leaves behind. -/
theorem stored_of_works (h : Works browser) (storage : Option StoredSession) :
    (Sdk.getOrCreateSession browser storage).2 =
      some ⟨(Sdk.getOrCreateSession browser storage).1.id,
        some (Sdk.getOrCreateSession browser storage).1.shareToken,
        browser.nowStored + SESSION_TTL_MS⟩ := by
  unfold Sdk.getOrCreateSession
  cases hreuse : Sdk.reuseSession browser storage with
  | none =>
    dsimp only
    rw [if_pos h.setItemNew]
  | some r =>
    obtain ⟨st, -, -, -, hstored⟩ := reuseSession_some hreuse
    exact congrArg some hstored

/-- **The next call** keeps the handle for `SESSION_TTL_MS`. -/
theorem getOrCreateSession_next (h : Works browser) (handle : SessionHandle) (stored : ℤ) :
    (Sdk.getOrCreateSession browser
        (some ⟨handle.id, some handle.shareToken, stored + SESSION_TTL_MS⟩)).1 =
      if decide (browser.now - stored < SESSION_TTL_MS) = true then handle
      else freshHandle browser := by
  have hiff : browser.now < stored + SESSION_TTL_MS ↔ browser.now - stored < SESSION_TTL_MS := by
    omega
  unfold Sdk.getOrCreateSession Sdk.reuseSession
  dsimp only
  rw [dif_pos handle.id_ne]
  by_cases hlive : browser.now - stored < SESSION_TTL_MS
  · have hcond : (browser.getItem && decide (browser.now < stored + SESSION_TTL_MS) &&
        browser.setItem) = true := by simp [h.getItem, h.setItem, hiff.mpr hlive]
    rw [if_pos hcond, if_pos (decide_eq_true hlive)]
    simp [orGenerated, handle.shareToken_ne]
  · have hcond : ¬ (browser.getItem && decide (browser.now < stored + SESSION_TTL_MS) &&
        browser.setItem) = true := by simp [mt hiff.mp hlive]
    have hfresh : ¬ decide (browser.now - stored < SESSION_TTL_MS) = true := by simpa using hlive
    rw [if_neg hcond, if_neg hfresh]
    rfl

/-- Whether each call after the first comes in time, and the session that it creates otherwise. -/
def steps : Browser → List Browser → List (Bool × SessionHandle)
  | _, [] => []
  | browser, next :: calls =>
    (decide (next.now - browser.nowStored < SESSION_TTL_MS), freshHandle next) :: steps next calls

/-- **Handles are kept or renewed.** -/
theorem sessions_eq_values (hworks : ∀ b ∈ browser :: calls, Works b) :
    sessions storage (browser :: calls) =
      Renewal.values (Sdk.getOrCreateSession browser storage).1 (steps browser calls) := by
  induction calls generalizing browser storage with
  | nil => rfl
  | cons next calls ih =>
    obtain ⟨hfirst, hrest⟩ := List.forall_mem_cons.mp hworks
    have hnext := (List.forall_mem_cons.mp hrest).1
    rw [sessions, stored_of_works hfirst storage, ih hrest, getOrCreateSession_next hnext, steps,
      Renewal.values]

theorem steps_getElem? (k : ℕ) (step : Bool × SessionHandle) :
    (steps browser calls)[k]? = some step ↔ ∃ c c', (browser :: calls)[k]? = some c ∧
      (browser :: calls)[k + 1]? = some c' ∧
      step = (decide (c'.now - c.nowStored < SESSION_TTL_MS), freshHandle c') := by
  induction calls generalizing browser k with
  | nil => simp [steps]
  | cons next calls ih =>
    rcases k with _ | k
    · simp [steps, eq_comm]
    · rw [steps, List.getElem?_cons_succ]
      exact ih k

theorem steps_snd (browser : Browser) (calls : List Browser) :
    (steps browser calls).map Prod.snd = calls.map freshHandle := by
  induction calls generalizing browser with
  | nil => rfl
  | cons next calls ih => rw [steps, List.map_cons, List.map_cons, ih]

end Calls

/-! ## Main theorem -/

section Main

variable {browser : Browser} {calls : List Browser} {storage : Option StoredSession}

/-- The ids that were generated before the first call. -/
def known : Option StoredSession → List String
  | none => []
  | some st => st.id :: st.shareToken.toList

/-- The ids that a sequence of calls generates, for a session and for a share token. -/
def generated (calls : List Browser) : List String :=
  calls.flatMap fun browser => [browser.newID.text, browser.newToken.text]

/-- A share token is stored or generated. -/
theorem orGenerated_cases (shareToken : Option String) (newToken : RandomUUID) :
    shareToken = some (orGenerated shareToken newToken).1 ∨
      (orGenerated shareToken newToken).1 = newToken.text := by
  cases shareToken with
  | none => exact Or.inr rfl
  | some t =>
    by_cases ht : t = ""
    · subst ht
      exact Or.inr rfl
    · exact Or.inl (by simp [orGenerated, ht])

/-- The parts of a handle are stored or generated. -/
theorem getOrCreateSession_parts (browser : Browser) (storage : Option StoredSession) :
    (Sdk.getOrCreateSession browser storage).1 = freshHandle browser ∨
      ∃ st, storage = some st ∧ (Sdk.getOrCreateSession browser storage).1.id = st.id ∧
        (st.shareToken = some (Sdk.getOrCreateSession browser storage).1.shareToken ∨
          (Sdk.getOrCreateSession browser storage).1.shareToken = browser.newToken.text) := by
  unfold Sdk.getOrCreateSession
  cases hreuse : Sdk.reuseSession browser storage with
  | none => exact Or.inl rfl
  | some r =>
    obtain ⟨st, hst, hid, htoken, -⟩ := reuseSession_some hreuse
    exact Or.inr ⟨st, hst, hid, htoken ▸ orGenerated_cases st.shareToken browser.newToken⟩

theorem ids_sublist (calls : List Browser) :
    (calls.map fun browser => browser.newID.text).Sublist (generated calls) := by
  induction calls with
  | nil => exact .slnil
  | cons browser calls ih => exact (ih.cons _).cons_cons _

theorem tokens_sublist (calls : List Browser) :
    (calls.map fun browser => browser.newToken.text).Sublist (generated calls) := by
  induction calls with
  | nil => exact .slnil
  | cons browser calls ih => exact (ih.cons_cons _).cons _

/-- **No id and no share token comes back.** -/
theorem nodup_handles (hfresh : (known storage ++ generated (browser :: calls)).Nodup) :
    (((Sdk.getOrCreateSession browser storage).1 :: calls.map freshHandle).map
        SessionHandle.id).Nodup ∧
      (((Sdk.getOrCreateSession browser storage).1 :: calls.map freshHandle).map
        SessionHandle.shareToken).Nodup := by
  have hids : (calls.map freshHandle).map SessionHandle.id =
      calls.map fun browser => browser.newID.text := List.map_map
  have htokens : (calls.map freshHandle).map SessionHandle.shareToken =
      calls.map fun browser => browser.newToken.text := List.map_map
  have hcalls : generated (browser :: calls) =
      browser.newID.text :: browser.newToken.text :: generated calls := rfl
  rw [List.map_cons, List.map_cons, hids, htokens]
  rcases getOrCreateSession_parts browser storage with heq | ⟨st, rfl, hid, htoken⟩
  · rw [heq]
    have hnew := hfresh.sublist (List.sublist_append_right _ _)
    exact ⟨hnew.sublist (ids_sublist (browser :: calls)),
      hnew.sublist (tokens_sublist (browser :: calls))⟩
  · rw [hid]
    rw [hcalls, known, List.cons_append] at hfresh
    refine ⟨hfresh.sublist (.cons_cons _ ?_), ?_⟩
    · exact (((ids_sublist calls).cons _).cons _).trans (List.sublist_append_right _ _)
    · rcases htoken with htoken | htoken
      · rw [htoken, Option.toList_some] at hfresh
        exact hfresh.of_cons.sublist (.cons_cons _ (((tokens_sublist calls).cons _).cons _))
      · rw [htoken]
        refine hfresh.of_cons.sublist (.trans ?_ (List.sublist_append_right _ _))
        exact ((tokens_sublist calls).cons_cons _).cons _

/-- **Session handles follow a sliding window** of `SESSION_TTL_MS`. The gap between two calls is
that from the reading that the first stores to the reading that the second compares. -/
theorem handles_window (strNumber : Units → Option ℚ) (num : ℚ → Units)
    (hnum : ∀ z : ℤ, ReadsValue (num z) (.num z)) {raw : Option Units}
    {storage : Option StoredSession} (hraw : Represents num raw storage) (calls : List Browser)
    (hworks : ∀ browser ∈ calls, Works browser) (hfresh : (known storage ++ generated calls).Nodup)
    {i j : ℕ} (hij : i < j) {handle handle' : Handle}
    (hi : (handles strNumber num raw calls)[i]? = some handle)
    (hj : (handles strNumber num raw calls)[j]? = some handle') :
    (handle.id = handle'.id ↔ ∀ k, i ≤ k → k < j → ∀ c c', calls[k]? = some c →
        calls[k + 1]? = some c' → c'.now - c.nowStored < SESSION_TTL_MS) ∧
      (handle.id = handle'.id → handle.shareToken = handle'.shareToken) ∧
      (handle.id ≠ handle'.id → handle.shareToken ≠ handle'.shareToken) := by
  cases calls with
  | nil => cases hi
  | cons browser calls =>
    rw [handles_eq hnum (browser :: calls) hraw, sessions_eq_values hworks, List.getElem?_map,
      Option.map_eq_some_iff] at hi hj
    obtain ⟨h, hi, rfl⟩ := hi
    obtain ⟨h', hj, rfl⟩ := hj
    have hstr : ∀ s t : String, Value.str (units s) = .str (units t) ↔ s = t := fun s t =>
      ⟨fun heq => units_injective (Value.str.inj heq), fun heq => heq ▸ rfl⟩
    have hnodup := nodup_handles hfresh
    rw [← steps_snd browser] at hnodup
    have hid := Renewal.values_eq_iff SessionHandle.id hnodup.1 hij.le hi hj
    have htoken := Renewal.values_eq_iff SessionHandle.shareToken hnodup.2 hij.le hi hj
    have hgaps : (∀ k, i ≤ k → k < j → ∀ step, (steps browser calls)[k]? = some step →
        step.1 = true) ↔ ∀ k, i ≤ k → k < j → ∀ c c', (browser :: calls)[k]? = some c →
          (browser :: calls)[k + 1]? = some c' → c'.now - c.nowStored < SESSION_TTL_MS := by
      constructor
      · intro hall k hik hkj c c' hc hc'
        exact of_decide_eq_true (hall k hik hkj _ ((steps_getElem? k _).mpr ⟨c, c', hc, hc', rfl⟩))
      · intro hall k hik hkj step hstep
        obtain ⟨c, c', hc, hc', rfl⟩ := (steps_getElem? k step).mp hstep
        exact decide_eq_true (hall k hik hkj c c' hc hc')
    simp only [valuesOf, ne_eq, hstr]
    exact ⟨hid.trans hgaps, fun heq => htoken.mpr (hid.mp heq),
      fun hne heq => hne (hid.mpr (htoken.mp heq))⟩

/-- A call with a working storage. -/
def callAt (now : ℤ) (newID newToken : RandomUUID) : Browser where
  getItem := true
  setItem := true
  setItemNew := true
  now := now
  nowStored := now
  newID := newID
  newToken := newToken

/-- An entry without a share token, and calls just before it expires and 30 minutes later, less a
millisecond. -/
theorem handles_legacy : ∃ storage : StoredSession, storage.shareToken = none ∧
    ∃ first second : Browser, first.now < storage.expiresAt ∧
      second.now - first.now = SESSION_TTL_MS - 1 ∧ ∃ handle handle',
        (handles (fun _ => none) (fun q => intText q.num)
          (some (text (fun q => intText q.num) storage)) [first, second])[0]? = some handle ∧
        (handles (fun _ => none) (fun q => intText q.num)
          (some (text (fun q => intText q.num) storage)) [first, second])[1]? = some handle' ∧
        handle.id = handle'.id ∧ handle.shareToken = handle'.shareToken := by
  let storage : StoredSession := ⟨"6c1f0a9e-8f51-4a53-9d2e-0b7d1a1c0a00", none, 60000⟩
  let first := callAt 59999 ⟨"6c1f0a9e-8f51-4a53-9d2e-0b7d1a1c0a01", by decide +kernel⟩
    ⟨"6c1f0a9e-8f51-4a53-9d2e-0b7d1a1c0a02", by decide +kernel⟩
  let second := callAt 1859998 ⟨"6c1f0a9e-8f51-4a53-9d2e-0b7d1a1c0a03", by decide +kernel⟩
    ⟨"6c1f0a9e-8f51-4a53-9d2e-0b7d1a1c0a04", by decide +kernel⟩
  have hworks : ∀ browser ∈ [first, second], Works browser := by
    intro browser hb
    simp only [List.mem_cons, List.not_mem_nil, or_false] at hb
    rcases hb with rfl | rfl <;> exact ⟨rfl, rfl, rfl⟩
  let raw := some (text (fun q => intText q.num) storage)
  obtain ⟨handle, hi⟩ : ∃ handle, (handles (fun _ => none) (fun q => intText q.num) raw
    [first, second])[0]? = some handle := ⟨_, rfl⟩
  obtain ⟨handle', hj⟩ : ∃ handle', (handles (fun _ => none) (fun q => intText q.num) raw
    [first, second])[1]? = some handle' := ⟨_, rfl⟩
  have hwindow := handles_window (fun _ => none) (fun q => intText q.num) readsValue_int
    (Or.inl rfl : Represents _ raw (some storage)) [first, second] hworks (by decide)
    Nat.zero_lt_one hi hj
  have hsame := hwindow.1.mpr fun k _ hk c c' hc hc' => by
    obtain rfl : k = 0 := by omega
    obtain rfl := Option.some.inj hc
    obtain rfl := Option.some.inj hc'
    decide
  exact ⟨storage, rfl, first, second, by decide, by decide, handle, handle', hi, hj, hsame,
    hwindow.2.1 hsame⟩

end Main

end SessionStorage

end Sdk

end BatRewind
