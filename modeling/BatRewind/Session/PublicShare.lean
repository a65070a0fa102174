import BatRewind.Session.ReplayOrder

/-!
# Public share links

`GetPublicSession` and `GetPublicEvents` serve a share token without a login.

* **`stripPlugins_eq_filter`**: the loop that filters the events in place returns them without the
  plugin events.
* `SharedAlike token db₁ db₂`: the databases agree on what a share link may show.
* **`public_share_noninterference`**: on such databases both endpoints return the same.
-/

namespace BatRewind

open Encoding Tables Effects Effects.Prog

/-! ## The loop of `GetPublicEvents` -/

/-- The event is not a plugin event. -/
def ReplayEvent.isPublic (e : ReplayEvent) : Bool := e.type ≠ rrwebPluginType

/-- After `k` rounds the first `st.2` elements are the public events among the first `k`, and the
elements from `k` on are untouched. -/
structure StripInv (events : List ReplayEvent) (k : ℕ) (st : List ReplayEvent × ℕ) : Prop where
  len : st.1.length = events.length
  le : st.2 ≤ k
  rest : st.1.drop k = events.drop k
  done : st.1.take st.2 = (events.take k).filter ReplayEvent.isPublic

theorem StripInv.step {events : List ReplayEvent} {k : ℕ} {st : List ReplayEvent × ℕ}
    (h : StripInv events k st) (hk : k < events.length) :
    StripInv events (k + 1) (Service.stripStep st k) := by
  have hget : st.1[k]? = some events[k] := by
    have := congrArg (fun l => l[0]?) h.rest
    simpa [hk] using this
  have hrest : st.1.drop (k + 1) = events.drop (k + 1) := by
    rw [← List.drop_drop, ← List.drop_drop, h.rest]
  have htake : (events.take (k + 1)).filter ReplayEvent.isPublic =
      st.1.take st.2 ++ [events[k]].filter ReplayEvent.isPublic := by
    rw [List.take_succ_eq_append_getElem hk, List.filter_append, h.done]
  unfold Service.stripStep
  rw [hget]
  by_cases hplugin : events[k].type = rrwebPluginType
  · simp only [hplugin, if_true]
    refine ⟨h.len, h.le.trans (Nat.le_succ k), hrest, ?_⟩
    rw [htake]
    simp [ReplayEvent.isPublic, hplugin]
  · simp only [hplugin, if_false]
    have hlt : st.2 < st.1.length := h.len ▸ lt_of_le_of_lt h.le hk
    refine ⟨by rw [List.length_set, h.len], Nat.succ_le_succ h.le, ?_, ?_⟩
    · rw [List.drop_set_of_lt (Nat.lt_succ_of_le h.le), hrest]
    · rw [htake]
      simp [ReplayEvent.isPublic, hplugin, List.take_succ_eq_append_getElem, hlt,
        List.take_set_of_le le_rfl]

/-- **Filtering in place** removes the plugin events and nothing else. -/
theorem stripPlugins_eq_filter (events : List ReplayEvent) :
    Service.stripPlugins events = events.filter ReplayEvent.isPublic := by
  have key : ∀ k ≤ events.length,
      StripInv events k ((List.range k).foldl Service.stripStep (events, 0)) := by
    intro k
    induction k with
    | zero => exact fun _ => ⟨rfl, le_rfl, rfl, rfl⟩
    | succ k ih =>
      intro hk
      rw [List.range_succ, List.foldl_append]
      exact (ih (Nat.le_of_succ_le hk)).step hk
  have h := (key events.length le_rfl).done
  rw [List.take_length] at h
  exact h

/-! ## What a share link shows -/

/-- The session that holds a share token. -/
def DB.holder (db : DB) (token : String) : Option ReplaySession :=
  db.sessions.rows.find? fun r => r.shareToken = some token

/-- **The databases agree on what the share link may show**: on whether a session holds the token,
on six columns of that session, and on its events other than plugin events. -/
structure SharedAlike (token : String) (db₁ db₂ : DB) : Prop where
  held : (db₁.holder token).isSome = (db₂.holder token).isSome
  columns : ∀ s₁ ∈ db₁.holder token, ∀ s₂ ∈ db₂.holder token, s₁.id = s₂.id ∧
    s₁.serviceName = s₂.serviceName ∧ s₁.environment = s₂.environment ∧
    s₁.startedAt = s₂.startedAt ∧ s₁.durationMs = s₂.durationMs ∧ s₁.eventCount = s₂.eventCount
  events : ∀ s₁ ∈ db₁.holder token, ((db₁.eventsOf s₁.id).filter ReplayEvent.isPublic).Perm
    ((db₂.eventsOf s₁.id).filter ReplayEvent.isPublic)

/-- No statement is refused, and rows with equal sort keys are returned in the order `tie`. -/
def TiesBy (tie : ReplayEvent → ReplayEvent → Prop) : Handler Call Resp DB := fun c db db' r =>
  Answers (fun e => e.fault = none) c db db' r ∧
    match c, r with
    | .sql (.selectEvents _), .ok rows => rows.Pairwise fun a b => a.key = b.key → tie a b
    | _, _ => True

section Share

variable {tie : ReplayEvent → ReplayEvent → Prop} {token : String} {db db' : DB}

theorem getByShareToken_runs {r : Except String ReplaySession}
    (h : Runs (TiesBy tie) (Repository.getByShareToken token).run db db' r) :
    db' = db ∧ r = (db.holder token).elim (.error errRecordNotFound) .ok := by
  obtain ⟨e, he, hexec⟩ := (runs_perform.mp h).1
  rw [exec_sql_of_none he] at hexec
  unfold DB.holder
  simp only [Stmt.run] at hexec
  cases hfind : db.sessions.rows.find? fun r => r.shareToken = some token with
  | some s => simp_all
  | none => simp_all

theorem getEvents_ties {sid : String} {r : Except String (List ReplayEvent)}
    (h : Runs (TiesBy tie) (Repository.getEvents sid).run db db' r) :
    ∃ rows, db' = db ∧ r = .ok rows ∧ rows.Perm (db.eventsOf sid) ∧
      rows.Pairwise fun a b => a.key ≤ b.key ∧ (a.key = b.key → tie a b) := by
  obtain ⟨hans, hties⟩ := runs_perform.mp h
  obtain ⟨e, he, hexec⟩ := hans
  rw [exec_sql_of_none he] at hexec
  obtain ⟨rfl, rfl⟩ := Prod.mk.inj hexec
  refine ⟨_, rfl, rfl, (List.perm_insertionSort _ _).trans (e.scanEvents.2 _), ?_⟩
  exact ((List.pairwise_insertionSort eventLE _).imp eventLE_iff.mp).and hties

theorem mem_events {sid : String} {ev : ReplayEvent} (h : ev ∈ db.eventsOf sid) :
    ev ∈ db.events.rows := List.mem_of_mem_filter h

theorem SharedAlike.holders {db₁ db₂ : DB} (h : SharedAlike token db₁ db₂) :
    (db₁.holder token = none ∧ db₂.holder token = none) ∨
      ∃ s₁ s₂, db₁.holder token = some s₁ ∧ db₂.holder token = some s₂ := by
  have := h.held
  cases h₁ : db₁.holder token <;> cases h₂ : db₂.holder token <;> simp_all

/-- Keys and ties leave one order for given rows of a table. -/
theorem eq_of_ties (db : DB) (htie : ∀ a b, tie a b → tie b a → a.id = b.id) {l l' : List ReplayEvent}
    (hperm : l'.Perm l) (hmem : ∀ ev ∈ l, ev ∈ db.events.rows)
    (hl : l.Pairwise fun a b => a.key ≤ b.key ∧ (a.key = b.key → tie a b))
    (hl' : l'.Pairwise fun a b => a.key ≤ b.key ∧ (a.key = b.key → tie a b)) : l' = l := by
  refine List.Perm.eq_of_pairwise (fun a b ha hb hab hba => ?_) hl' hl hperm
  have hk : a.key = b.key := le_antisymm hab.1 hba.1
  exact db.events.eq_of_key_eq (hmem a (hperm.mem_iff.mp ha)) (hmem b hb)
    (htie a b (hab.2 hk) (hba.2 hk.symm))

/-- What `GetPublicEvents` returns for the session that holds the token, if any. -/
def PublicEvents (tie : ReplayEvent → ReplayEvent → Prop) (db : DB) :
    Option ReplaySession → Except String (List ReplayEvent) → Prop
  | none, r => r = .error errRecordNotFound
  | some s, r => ∃ rows : List ReplayEvent, rows.Perm (db.eventsOf s.id) ∧
      (rows.Pairwise fun a b => a.key ≤ b.key ∧ (a.key = b.key → tie a b)) ∧
      r = .ok (rows.filter ReplayEvent.isPublic)

theorem getPublicEvents_runs {r : Except String (List ReplayEvent)}
    (h : Runs (TiesBy tie) (Service.getPublicEvents token).run db db' r) :
    PublicEvents tie db (db.holder token) r := by
  rcases runs_bind_except.mp h with ⟨db₁, s, h₁, h₂⟩ | ⟨msg, h₁, rfl⟩
  · obtain ⟨rfl, hs⟩ := getByShareToken_runs h₁
    cases hold : db₁.holder token with
    | none => rw [hold] at hs; cases hs
    | some s' =>
      rw [hold] at hs
      cases hs
      rcases runs_bind_except.mp h₂ with ⟨db₂, rows, h₃, rfl, rfl⟩ | ⟨msg, h₃, rfl⟩
      · obtain ⟨rows', -, hr, hperm, hsorted⟩ := getEvents_ties h₃
        cases hr
        exact ⟨rows, hperm, hsorted, by rw [← stripPlugins_eq_filter]⟩
      · obtain ⟨rows', -, hr, -⟩ := getEvents_ties h₃
        cases hr
  · obtain ⟨rfl, hs⟩ := getByShareToken_runs h₁
    cases hold : db'.holder token with
    | none => rw [hold] at hs; cases hs; rfl
    | some s => rw [hold] at hs; cases hs

theorem getPublicSession_runs {r : Except String PublicSession}
    (h : Runs (TiesBy tie) (Service.getPublicSession token).run db db' r) :
    r = (db.holder token).elim (.error errRecordNotFound) fun s => .ok s.toPublic := by
  rcases runs_bind_except.mp h with ⟨db₁, s, h₁, rfl, rfl⟩ | ⟨msg, h₁, rfl⟩
  · obtain ⟨rfl, hs⟩ := getByShareToken_runs h₁
    cases hold : db'.holder token with
    | none => rw [hold] at hs; cases hs
    | some s' => rw [hold] at hs; cases hs; rfl
  · obtain ⟨rfl, hs⟩ := getByShareToken_runs h₁
    cases hold : db'.holder token with
    | none => rw [hold] at hs; cases hs; rfl
    | some s' => rw [hold] at hs; cases hs

/-- **Share links do not interfere.** What they return depends only on what they may show, and the
public events are the events of the session without its plugin events, in the same order. -/
theorem public_share_noninterference (htie : ∀ a b, tie a b → tie b a → a.id = b.id)
    {db₁ db₂ : DB} (halike : SharedAlike token db₁ db₂) :
    (∀ db₁' db₂' r₁ r₂, Runs (TiesBy tie) (Service.getPublicSession token).run db₁ db₁' r₁ →
      Runs (TiesBy tie) (Service.getPublicSession token).run db₂ db₂' r₂ → r₁ = r₂) ∧
    (∀ db₁' db₂' r₁ r₂, Runs (TiesBy tie) (Service.getPublicEvents token).run db₁ db₁' r₁ →
      Runs (TiesBy tie) (Service.getPublicEvents token).run db₂ db₂' r₂ → r₁ = r₂) ∧
    ∀ db₁' db₁'' evs all, ∀ s ∈ db₁.holder token,
      Runs (TiesBy tie) (Service.getPublicEvents token).run db₁ db₁' (.ok evs) →
      Runs (TiesBy tie) (Repository.getEvents s.id).run db₁ db₁'' (.ok all) →
      evs = all.filter fun ev => ev.type ≠ 6 := by
  refine ⟨?_, ?_, ?_⟩
  · intro db₁' db₂' r₁ r₂ h₁ h₂
    rw [getPublicSession_runs h₁, getPublicSession_runs h₂]
    rcases halike.holders with ⟨e₁, e₂⟩ | ⟨s₁, s₂, e₁, e₂⟩
    · rw [e₁, e₂]
    · obtain ⟨hid, hname, henv, hstart, hdur, hcount⟩ := halike.columns s₁ e₁ s₂ e₂
      rw [e₁, e₂]
      simp only [Option.elim_some, ReplaySession.toPublic, hid, hname, henv, hstart, hdur, hcount]
  · intro db₁' db₂' r₁ r₂ h₁ h₂
    have hr₁ := getPublicEvents_runs h₁
    have hr₂ := getPublicEvents_runs h₂
    rcases halike.holders with ⟨e₁, e₂⟩ | ⟨s₁, s₂, e₁, e₂⟩
    · rw [e₁] at hr₁
      rw [e₂] at hr₂
      exact hr₁.trans hr₂.symm
    · rw [e₁] at hr₁
      rw [e₂] at hr₂
      obtain ⟨rows₁, hperm₁, hsort₁, rfl⟩ := hr₁
      obtain ⟨rows₂, hperm₂, hsort₂, rfl⟩ := hr₂
      rw [← (halike.columns s₁ e₁ s₂ e₂).1] at hperm₂
      refine congrArg Except.ok (eq_of_ties db₂ htie ?_ ?_ (hsort₂.filter _) (hsort₁.filter _))
      · exact (hperm₁.filter _).trans ((halike.events s₁ e₁).trans (hperm₂.filter _).symm)
      · intro ev hev
        exact mem_events (hperm₂.mem_iff.mp (List.mem_of_mem_filter hev))
  · intro db₁' db₁'' evs all s hs hevs hall
    obtain ⟨_, -, hr, hperm, hsort⟩ := getEvents_ties hall
    cases hr
    have hr := getPublicEvents_runs hevs
    rw [hs] at hr
    obtain ⟨rows, hperm', hsort', hr⟩ := hr
    cases hr
    have hrows : rows = all := eq_of_ties db₁ htie (hperm'.trans hperm.symm)
      (fun ev hev => mem_events (hperm.mem_iff.mp hev)) hsort hsort'
    rw [hrows]
    rfl

end Share

/-- Rows with equal sort keys in the order of their ids. -/
def byID (a b : ReplayEvent) : Prop := a.id ≤ b.id

instance : DecidableRel byID := fun a b => inferInstanceAs (Decidable (a.id ≤ b.id))

/-- The answers of a database that returns the rows of its tables in their order, if that leaves
rows with equal sort keys in the order of their ids. -/
def execTies : (c : Call) → DB → Option (DB × Resp c)
  | .sql (.selectEvents sid), db =>
    let rows := (db.eventsOf sid).insertionSort eventLE
    if rows.Pairwise fun a b => a.key = b.key → byID a b then some (db, .ok rows) else none
  | c, db => some (exec (.quiet none 0 fun _ => "") c db)

theorem execTies_tiesBy {c : Call} {db db' : DB} {r : Resp c}
    (h : execTies c db = some (db', r)) : TiesBy byID c db db' r := by
  cases c with
  | timeNow | uuidNew => exact ⟨⟨_, rfl, Option.some.inj h⟩, trivial⟩
  | sql q =>
    cases q with
    | selectEvents sid =>
      obtain ⟨hties, hrows⟩ := Option.ite_none_right_eq_some.mp h
      obtain ⟨rfl, rfl⟩ := Prod.mk.inj (Option.some.inj hrows)
      exact ⟨⟨.quiet none 0 fun _ => "", rfl, rfl⟩, hties⟩
    | _ => exact ⟨⟨_, rfl, Option.some.inj h⟩, trivial⟩

/-- A shared session of a user, with console output or without. -/
def sampleShared (email : String) (console : Bool) : DB where
  sessions := ⟨[{ Service.sessionOf (plainBatch sampleID []) 0 with
    userEmail := email, shareToken := some "token" }], List.nodup_singleton _⟩
  events := ⟨⟨sampleEventID false, sampleID, 0, 2, .obj [], 1, 0⟩ ::
    ((if console then [⟨sampleEventID true, sampleID, 1, 6, .str "secret", 1, 0⟩] else []) ++
      [⟨sampleID, sampleID, 2, 3, .obj [], 2, 0⟩]), by cases console <;> decide⟩
  failed := .empty
  token_unique := by simp
  session_exists := by
    cases console <;> simp [Table.keys, Service.sessionOf, plainBatch]

/-- Neither the email nor the console output of a shared session shows. -/
theorem public_share_sample :
    let db₁ := sampleShared "a@example.com" true
    let db₂ := sampleShared "b@example.com" false
    SharedAlike "token" db₁ db₂ ∧ ∃ session evs all,
      Runs (TiesBy byID) (Service.getPublicSession "token").run db₁ db₁ (.ok session) ∧
      Runs (TiesBy byID) (Service.getPublicSession "token").run db₂ db₂ (.ok session) ∧
      Runs (TiesBy byID) (Service.getPublicEvents "token").run db₁ db₁ (.ok evs) ∧
      Runs (TiesBy byID) (Service.getPublicEvents "token").run db₂ db₂ (.ok evs) ∧
      Runs (TiesBy byID) (Repository.getEvents sampleID).run db₁ db₁ (.ok all) ∧
      all.map (·.type) = [2, 6, 3] ∧ evs = all.filter fun ev => ev.type ≠ 6 := by
  intro db₁ db₂
  have halike : SharedAlike "token" db₁ db₂ := by
    refine ⟨rfl, ?_, ?_⟩
    · rintro s₁ ⟨⟩ s₂ ⟨⟩
      exact ⟨rfl, rfl, rfl, rfl, rfl, rfl⟩
    · rintro s₁ ⟨⟩
      exact List.Perm.refl _
  have hruns {α : Type} {x : Svc α} {db db' : DB} {r : Except String α} {calls : List Unit}
      (h : x.run.follow (fun _ => execTies) calls db = some (db', r)) :
      Runs (TiesBy byID) x.run db db' r :=
    runs_follow (T := TiesBy byID) (fun _ _ _ _ _ h => execTies_tiesBy h) h
  obtain ⟨session₁, h₁⟩ : ∃ session, (Service.getPublicSession "token").run.follow
      (fun _ : Unit => execTies) [()] db₁ = some (db₁, .ok session) := ⟨_, rfl⟩
  obtain ⟨session₂, h₂⟩ : ∃ session, (Service.getPublicSession "token").run.follow
      (fun _ : Unit => execTies) [()] db₂ = some (db₂, .ok session) := ⟨_, rfl⟩
  obtain ⟨evs₁, h₃⟩ : ∃ evs, (Service.getPublicEvents "token").run.follow
      (fun _ : Unit => execTies) [(), ()] db₁ = some (db₁, .ok evs) := ⟨_, rfl⟩
  obtain ⟨evs₂, h₄⟩ : ∃ evs, (Service.getPublicEvents "token").run.follow
      (fun _ : Unit => execTies) [(), ()] db₂ = some (db₂, .ok evs) := ⟨_, rfl⟩
  obtain ⟨all, h₅, htypes⟩ : ∃ all, (Repository.getEvents sampleID).run.follow
      (fun _ : Unit => execTies) [()] db₁ = some (db₁, .ok all) ∧
      all.map (·.type) = [2, 6, 3] := ⟨_, rfl, rfl⟩
  obtain ⟨hsession, hevents, hfilter⟩ :=
    public_share_noninterference (fun _ _ => String.le_antisymm) halike
  obtain rfl := Except.ok.inj (hsession _ _ _ _ (hruns h₁) (hruns h₂))
  obtain rfl := Except.ok.inj (hevents _ _ _ _ (hruns h₃) (hruns h₄))
  exact ⟨halike, _, _, all, hruns h₁, hruns h₂, hruns h₃, hruns h₄, hruns h₅, htypes,
    hfilter _ _ _ _ _ rfl (hruns h₃) (hruns h₅)⟩

end BatRewind
