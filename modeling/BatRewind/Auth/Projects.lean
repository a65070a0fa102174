import BatRewind.Auth.Keys
import BatRewind.Lib.Pool

/-!
# One project for a service

`EnsureProject` looks for the project of a service, creates it, and looks again if another caller
was faster. Here the calls of the service run side by side, statement by statement.

* `KeyCall.returning`: the calls with what they return.
* `Serving sound`: the database; if it is `sound`, no statement is refused and a generated id is
  never that of another project.
* `serves_ensureProject`: a call within what the others may do, which is to insert projects
  (`ProjectsKept`).
* **`ensureProject_agree`**: in every interleaving all calls for a service return the id of its one
  project; on a sound database every call returns it.
-/

namespace BatRewind

open Tables Effects Effects.Prog

/-- The program of a call with its result. -/
def KeyCall.returning (sha256 : Bytes → Bytes) :
    KeyCall → Prog AuthCall AuthResp (Except AuthError String)
  | .createAPIKey projectID name => (Auth.createAPIKey sha256 projectID name).run
  | .ensureAPIKey rawKey name => (do Auth.ensureAPIKey sha256 rawKey name; return "").run
  | .revokeAPIKey id => (do Auth.Repository.revokeAPIKey id; return "").run
  | .updateAPIKeyProject keyID projectID =>
    (do Auth.Repository.updateAPIKeyProject keyID projectID; return "").run
  | .ensureProject serviceName apiKeyID => (Auth.ensureProject serviceName apiKeyID).run

/-- Any statement may be refused, unless the database is sound. -/
def Serving (sound : Prop) : Handler AuthCall AuthResp AuthDB := fun c db db' r =>
  AuthAnswers (fun e => sound → e.fault = none) c db db' r ∧
    (sound → ∀ p, c = .sql (.createProject p) → p.id ∉ db.projects.keys)

/-- Projects are only inserted. -/
def ProjectsKept (db db' : AuthDB) : Prop := ∀ p ∈ db.projects.rows, p ∈ db'.projects.rows

instance : Std.Refl ProjectsKept := ⟨fun _ _ h => h⟩

instance : IsTrans AuthDB ProjectsKept := ⟨fun _ _ _ h h' p hp => h' p (h p hp)⟩

/-! ## Statements -/

section Statements

variable {E : AuthEnv → Prop} {db db' : AuthDB}

theorem AuthDB.insertProject_rows {p : Project} (h : db.insertProject p = some db') :
    db'.projects.rows = db.projects.rows ++ [p] := by
  unfold AuthDB.insertProject at h
  split at h
  next t ht =>
    split_ifs at h
    cases h
    exact Table.rows_of_insert ht
  next => cases h

/-- A project is refused only if its id or its slug is taken. -/
theorem AuthDB.insertProject_none {p : Project} (h : db.insertProject p = none) :
    p.id ∈ db.projects.keys ∨ ∃ p' ∈ db.projects.rows, p'.slug = p.slug := by
  unfold AuthDB.insertProject at h
  split at h
  next t ht =>
    split_ifs at h with hslug
    refine Or.inr ?_
    by_contra hnone
    simp only [not_exists, not_and] at hnone
    refine hslug ?_
    rw [List.map_append, List.nodup_append]
    refine ⟨db.slug_unique, List.nodup_singleton _, fun a ha b hb => ?_⟩
    obtain ⟨p', hp', rfl⟩ := List.mem_map.mp ha
    rw [List.map_singleton, List.mem_singleton] at hb
    exact hb ▸ hnone p' hp'
  next hnone => exact Or.inl (Table.mem_of_insert_singleton hnone)

theorem AuthAnswers.projectsKept {c : AuthCall} {r : AuthResp c} (h : AuthAnswers E c db db' r) :
    ProjectsKept db db' := by
  cases c with
  | timeNow | uuidNew | randRead =>
    obtain ⟨e, -, h⟩ := h
    obtain ⟨rfl, -⟩ := Prod.mk.inj h
    exact fun _ hp => hp
  | sql q =>
    rcases h.sql_cases with ⟨_, _, -, -, rfl, -⟩ | ⟨_, _, -, -, rfl, -⟩ | ⟨e, a, -, hrun, -⟩
    · exact fun _ hp => hp
    · exact fun _ hp => hp
    cases q with
    | createProject p =>
      simp only [AuthStmt.run] at hrun
      split at hrun
      next db₁ hp =>
        cases hrun
        intro p' hp'
        rw [AuthDB.insertProject_rows hp]
        exact List.mem_append_left _ hp'
      next => cases hrun
    | createAPIKey k =>
      simp only [AuthStmt.run] at hrun
      split at hrun
      next db₁ hk =>
        cases hrun
        unfold AuthDB.insertKey at hk
        split at hk
        · split_ifs at hk
          cases hk
          exact fun _ hp => hp
        · cases hk
      next => cases hrun
    | revokeAPIKey id | updateAPIKeyProject id projectID =>
      cases hrun
      exact fun _ hp => hp
    | selectActiveByHash keyHash | selectAPIKey id | selectProjectBySlug slug =>
      simp only [AuthStmt.run] at hrun
      split at hrun <;> cases hrun
      exact fun _ hp => hp

end Statements

/-! ## Programs -/

/-- The program goes on whatever the others do, and returns with `Q`. -/
abbrev AuthServes {α : Type} (sound : Prop) (Q : α → AuthDB → Prop) (p : Prog AuthCall AuthResp α)
    (db : AuthDB) : Prop :=
  Always (Serving sound) ProjectsKept (fun _ _ => True) Q p db

/-- The service has a project with this id. -/
def HasProject (slug id : String) (db : AuthDB) : Prop :=
  ∃ p ∈ db.projects.rows, p.slug = slug ∧ p.id = id

theorem HasProject.kept {slug id : String} {db db' : AuthDB} (h : HasProject slug id db)
    (hkept : ProjectsKept db db') : HasProject slug id db' := by
  obtain ⟨p, hp, h⟩ := h
  exact ⟨p, hkept p hp, h⟩

section Programs

variable {sound : Prop} {db : AuthDB} {slug : String}

/-- What is returned without an error is right, and a sound database leaves no error. -/
def Settles {α : Type} (sound : Prop) (P : α → AuthDB → Prop) (r : Except AuthError α)
    (db : AuthDB) : Prop :=
  (∀ a, r = .ok a → P a db) ∧ (sound → ∃ a, r = .ok a)

theorem settles_ok {α : Type} {P : α → AuthDB → Prop} {a : α} (h : P a db) :
    Settles sound P (.ok a) db := by
  refine ⟨?_, fun _ => ⟨a, rfl⟩⟩
  rintro _ ⟨⟩
  exact h

theorem settles_error {α : Type} {P : α → AuthDB → Prop} (e : AuthError) (h : ¬ sound) :
    Settles sound P (.error e : Except AuthError α) db := by
  refine ⟨?_, fun hs => absurd hs h⟩
  rintro _ ⟨⟩

/-- The result of a lookup that began in `db₀`: the project of the service, or an error. On a sound
database the error is `notFound` and there was no project. -/
def LooksUp {ε : Type} (sound : Prop) (notFound : ε) (slug : String) (db₀ : AuthDB)
    (r : Except ε Project) (db : AuthDB) : Prop :=
  (∀ p, r = .ok p → HasProject slug p.id db) ∧
    ∀ err, r = .error err → sound → err = notFound ∧ ∀ id, ¬ HasProject slug id db₀

theorem serves_getProjectBySlug (slug : String) (db : AuthDB) :
    AuthServes sound (LooksUp sound .notFound slug db)
      (Auth.Repository.getProjectBySlug slug).run db := by
  have hselect : AuthServes sound (LooksUp sound .recordNotFound slug db)
      (Auth.sql (.selectProjectBySlug slug)).run db := by
    intro db₁ h₁
    refine ⟨trivial, fun db₂ r hT db₃ h₃ => ?_⟩
    rcases hT.1.sql_cases with
      ⟨e, text, hE, hf, rfl, rfl⟩ | ⟨e, err, hE, hrun, rfl, rfl⟩ | ⟨e, p, hE, hrun, rfl⟩
    · refine ⟨by rintro _ ⟨⟩, fun err _ hsound => ?_⟩
      rw [hE hsound] at hf
      cases hf
    · refine ⟨by rintro _ ⟨⟩, fun err' h _ => ?_⟩
      cases h
      simp only [AuthStmt.run] at hrun
      split at hrun
      next => cases hrun
      next hnone =>
        cases hrun
        refine ⟨rfl, fun id hid => ?_⟩
        obtain ⟨p, hp, hslug, -⟩ := hid.kept h₁
        exact absurd (List.find?_eq_none.mp hnone p hp) (by simp [hslug])
    · refine ⟨fun p' h => ?_, by rintro _ ⟨⟩⟩
      cases h
      simp only [AuthStmt.run] at hrun
      split at hrun
      next p' hp' =>
        cases hrun
        exact ⟨_, h₃ _ (List.mem_of_find?_eq_some hp'), by simpa using List.find?_some hp', rfl⟩
      next => cases hrun
  refine hselect.mapError _ fun r db' hr => ?_
  cases r with
  | ok p => exact ⟨fun p' h => hr.1 p' (by cases h; rfl), by rintro _ ⟨⟩⟩
  | error err =>
    refine ⟨by rintro _ ⟨⟩, fun err' h hsound => ?_⟩
    cases h
    obtain ⟨rfl, hnone⟩ := hr.2 err rfl hsound
    exact ⟨rfl, hnone⟩

/-- The result of an insert: the project is there, or an error. On a sound database the service has
some project then. -/
def Creates {ε : Type} (sound : Prop) (p : Project) (r : Except ε Unit) (db : AuthDB) : Prop :=
  (r = .ok () → HasProject p.slug p.id db) ∧ (sound → ∃ id, HasProject p.slug id db)

theorem serves_createProject (p : Project) (db : AuthDB) :
    AuthServes sound (Creates sound p) (Auth.Repository.createProject p).run db := by
  have hinsert : AuthServes sound (Creates sound p) (Auth.sql (.createProject p)).run db := by
    intro db₁ h₁
    refine ⟨trivial, fun db₂ r hT db₃ h₃ => ?_⟩
    rcases hT.1.sql_cases with
      ⟨e, text, hE, hf, rfl, rfl⟩ | ⟨e, err, hE, hrun, rfl, rfl⟩ | ⟨e, u, hE, hrun, rfl⟩
    · refine ⟨nofun, fun hsound => ?_⟩
      rw [hE hsound] at hf
      cases hf
    · refine ⟨nofun, fun hsound => ?_⟩
      simp only [AuthStmt.run] at hrun
      split at hrun
      next => cases hrun
      next hnone =>
        rcases AuthDB.insertProject_none hnone with hid | ⟨p', hp', hslug⟩
        · exact absurd hid (hT.2 hsound p rfl)
        · exact ⟨p'.id, p', h₃ p' hp', hslug, rfl⟩
    · simp only [AuthStmt.run] at hrun
      split at hrun
      next db₁ hp =>
        cases hrun
        have hnew : HasProject p.slug p.id db₃ := by
          refine ⟨p, h₃ p ?_, rfl, rfl⟩
          rw [AuthDB.insertProject_rows hp]
          exact List.mem_append_right _ (List.mem_singleton_self p)
        exact ⟨fun _ => hnew, fun _ => ⟨p.id, hnew⟩⟩
      next => cases hrun
  refine hinsert.mapError _ fun r db' hr => ⟨fun h => hr.1 ?_, hr.2⟩
  cases r with
  | ok u => rfl
  | error err => cases h

/-- Errors of the adoption are ignored. -/
theorem serves_adoptKey (apiKeyID projectID : String) {db₀ : AuthDB} {id : String}
    (hid : HasProject slug id db₀) :
    AuthServes sound (Succeeds fun _ db => HasProject slug id db)
      (Auth.adoptKey apiKeyID projectID).run db₀ := by
  have hcall : ∀ {α : Type} (x : AuthSvc α) (db : AuthDB), HasProject slug id db →
      AuthServes sound (Succeeds fun _ db => HasProject slug id db)
        (ExceptT.lift x.run : AuthSvc (Except AuthError α)).run db := by
    intro α x db h
    have hx : AuthServes sound (fun _ _ => True) x.run db :=
      (allCalls_of_forall (P := fun _ => True) (fun _ => trivial) _).always (fun _ _ h => h) db
    have hframed := hx.frame fun _ _ _ _ _ hT => AuthAnswers.projectsKept hT.1
    exact Always.lift_succeeds (hframed.imp fun _ _ hr => h.kept hr.2)
  have hpure : ∀ db, HasProject slug id db → AuthServes sound
      (Succeeds fun _ db => HasProject slug id db) (pure () : AuthSvc Unit).run db :=
    fun db h db' h' => ⟨(), rfl, h.kept h'⟩
  unfold Auth.adoptKey
  split_ifs
  · refine (hcall _ db₀ hid).bind_succeeds fun r db₁ h₁ => ?_
    cases r with
    | error err => exact hpure db₁ h₁
    | ok key =>
      dsimp only
      split_ifs
      · exact (hcall _ db₁ h₁).bind_succeeds fun _ db₂ h₂ => hpure db₂ h₂
      · exact hpure db₁ h₁
  · exact hpure db₀ hid

/-- **A call of `EnsureProject`** returns the id of the project that the service has. -/
theorem serves_ensureProject (serviceName apiKeyID : String) (db : AuthDB) :
    AuthServes sound (Settles sound fun id db' => HasProject serviceName id db')
      (Auth.ensureProject serviceName apiKeyID).run db := by
  have hfound : ∀ {id : String} {db₁ : AuthDB}, HasProject serviceName id db₁ →
      AuthServes sound (Settles sound fun id db' => HasProject serviceName id db')
        (pure id : AuthSvc String).run db₁ := fun hid db₂ h₂ => settles_ok (hid.kept h₂)
  have hthrow : ∀ (err : AuthError) (db₁ : AuthDB), ¬ sound → AuthServes sound
      (Settles sound fun id db' => HasProject serviceName id db') (throw err : AuthSvc String).run
      db₁ := fun err _ hs _ _ => settles_error err hs
  have hcall : ∀ c (db : AuthDB), AuthServes sound (Succeeds fun _ _ => True)
      (ExceptT.lift (perform (R := AuthResp) c) : AuthSvc (AuthResp c)).run db := fun c db =>
    Always.lift_succeeds (always_perform fun _ _ => ⟨trivial, fun _ _ _ _ _ => trivial⟩)
  unfold Auth.ensureProject
  refine (Always.lift_succeeds (serves_getProjectBySlug serviceName db)).bind_succeeds
    fun r db₁ hr => ?_
  cases r with
  | ok project => exact hfound (hr.1 project rfl)
  | error err =>
    dsimp only
    split_ifs with herr
    · exact hthrow err db₁ fun hs => herr (hr.2 err rfl hs).1
    refine (hcall .uuidNew db₁).bind_succeeds fun id db₂ _ => ?_
    refine (hcall .timeNow db₂).bind_succeeds fun now db₃ _ => ?_
    refine (Always.lift_succeeds (serves_createProject _ db₃)).bind_succeeds fun r db₄ hr => ?_
    cases r with
    | error createErr =>
      -- another caller may have been faster
      refine (Always.lift_succeeds (serves_getProjectBySlug serviceName db₄)).bind_succeeds
        fun r db₅ hr' => ?_
      cases r with
      | ok existing => exact hfound (hr'.1 existing rfl)
      | error err' =>
        refine hthrow createErr db₅ fun hs => ?_
        obtain ⟨id', hid'⟩ := hr.2 hs
        exact (hr'.2 err' rfl hs).2 id' hid'
    | ok u =>
      exact (serves_adoptKey apiKeyID _ (hr.1 rfl)).bind_succeeds fun _ db₅ hid => hfound hid

end Programs

/-! ## Interleavings -/

section Interleavings

variable {sha256 : Bytes → Bytes} {sound : Prop} {db₀ db : AuthDB}

/-- What a call leaves behind: `EnsureProject` the project of its service. -/
def KeyCall.Ensures (sound : Prop) : KeyCall → Except AuthError String → AuthDB → Prop
  | .ensureProject serviceName _, r, db =>
    Settles sound (fun id db' => HasProject serviceName id db') r db
  | _, _, _ => True

theorem serves_returning (c : KeyCall) (db : AuthDB) :
    AuthServes sound (c.Ensures sound) (c.returning sha256) db := by
  cases c with
  | ensureProject serviceName apiKeyID => exact serves_ensureProject serviceName apiKeyID db
  | createAPIKey _ _ | ensureAPIKey _ _ | revokeAPIKey _ | updateAPIKeyProject _ _ =>
    exact (allCalls_of_forall (P := fun _ => True) (fun _ => trivial) _).always
      (fun _ _ h => h) db

/-- What the calls that have returned in an interleaving left behind. -/
theorem returned_ensures {calls : List KeyCall}
    {ps : Pool KeyCall AuthCall AuthResp (Except AuthError String)}
    (hruns : PoolRuns (fun _ => Serving sound)
      (calls.map fun c => (c, c.returning sha256), db₀) (ps, db)) :
    ProjectsKept db₀ db ∧ ∀ c r, (c, Prog.ret r) ∈ ps → c.Ensures sound r db := by
  have hprogs : ∀ t ∈ calls.map fun c => (c, c.returning sha256),
      AuthServes sound (t.1.Ensures sound) t.2 db₀ := by
    intro t ht
    obtain ⟨c, -, rfl⟩ := List.mem_map.mp ht
    exact serves_returning c db₀
  obtain ⟨hkept, hps⟩ := hruns.invariant (J := ProjectsKept db₀)
    (G := fun _ _ _ => True) (Q := fun c : KeyCall => c.Ensures sound)
    (fun _ _ s s' _ hJ _ hT => by
      have hstep : ProjectsKept s s' := AuthAnswers.projectsKept hT.1
      exact ⟨IsTrans.trans _ _ _ hJ hstep, hstep⟩)
    (Std.Refl.refl db₀) hprogs
  exact ⟨hkept, fun c r hr => hps _ hr db (Std.Refl.refl db)⟩

/-- Two projects of one service are the same. -/
theorem HasProject.unique {slug id id' : String} (h : HasProject slug id db)
    (h' : HasProject slug id' db) : id = id' := by
  obtain ⟨p, hp, hslug, rfl⟩ := h
  obtain ⟨p', hp', hslug', rfl⟩ := h'
  rw [List.inj_on_of_nodup_map db.slug_unique hp hp' (hslug.trans hslug'.symm)]

/-- **All calls for a service agree on its project.** In every interleaving of calls of the service,
each of which may be refused at any statement: no project is lost; what `EnsureProject` returned is
the id of a project of that name, the same for all its callers; and if no statement is refused and
generated ids are new, every `EnsureProject` that returned succeeded, also one that another caller
overtook between its lookup and its insert. -/
theorem ensureProject_agree {calls : List KeyCall}
    {ps : Pool KeyCall AuthCall AuthResp (Except AuthError String)}
    (hruns : PoolRuns (fun _ => Serving sound)
      (calls.map fun c => (c, c.returning sha256), db₀) (ps, db)) :
    ProjectsKept db₀ db ∧
      (∀ serviceName key r, (.ensureProject serviceName key, .ret r) ∈ ps →
        (∀ id, r = .ok id → HasProject serviceName id db) ∧ (sound → ∃ id, r = .ok id)) ∧
      ∀ serviceName key key' id id', (.ensureProject serviceName key, .ret (.ok id)) ∈ ps →
        (.ensureProject serviceName key', .ret (.ok id')) ∈ ps → id = id' := by
  obtain ⟨hkept, hps⟩ := returned_ensures hruns
  refine ⟨hkept, fun serviceName key r hr => hps _ _ hr, ?_⟩
  intro serviceName key key' id id' h h'
  have hid : HasProject serviceName id db := (hps _ _ h).1 id rfl
  have hid' : HasProject serviceName id' db := (hps _ _ h').1 id' rfl
  exact hid.unique hid'

/-- The insert of the call, if it is one, has an id that is not taken. -/
def newProjectID (db : AuthDB) : AuthCall → Bool
  | .sql (.createProject p) => p.id ∉ db.projects.keys
  | _ => true

theorem serving_authExec {e : AuthEnv} {c : AuthCall} {db : AuthDB} (hf : e.fault = none)
    (h : newProjectID db c = true) :
    Serving True c db (authExec e c db).1 (authExec e c db).2 := by
  refine ⟨⟨e, fun _ => hf, rfl⟩, ?_⟩
  rintro - p rfl
  simpa [newProjectID] using h

/-- Two calls that both find no project: the one whose insert is refused returns the id of the
other's project. -/
theorem ensureProject_agree_overtaken : ∃ db r r',
    PoolRuns (fun _ => Serving True)
      ([KeyCall.ensureProject "shop" "", .ensureProject "shop" ""].map fun c =>
        (c, c.returning sampleSha256), AuthDB.empty)
      ([(.ensureProject "shop" "", .ret r), (.ensureProject "shop" "", .ret r')], db) ∧
    ∃ id, r = .ok id ∧ r' = .ok id ∧ HasProject "shop" id db := by
  let e : String → AuthEnv := fun id => ⟨none, "23505", 0, id, .ok []⟩
  obtain ⟨db, r, r', hrun⟩ : ∃ db r r', Pool.follow (fun (_ : KeyCall) e c db =>
      if e.fault = none ∧ newProjectID db c then some (authExec e c db) else none)
      [(0, e "a"), (1, e "b"), (0, e "a"), (1, e "b"), (0, e "a"), (1, e "b"), (1, e "b"),
        (0, e "a"), (0, e "a")]
      ([KeyCall.ensureProject "shop" "", .ensureProject "shop" ""].map fun c =>
        (c, c.returning sampleSha256), AuthDB.empty) =
      some ([(.ensureProject "shop" "", .ret r), (.ensureProject "shop" "", .ret r')], db) :=
    ⟨_, _, _, rfl⟩
  have hruns := Pool.follow_runs (T := fun _ => Serving True)
    (fun _ e c db db' r hr => by
      split_ifs at hr with h
      obtain ⟨rfl, rfl⟩ := Prod.mk.inj (Option.some.inj hr)
      exact serving_authExec h.1 h.2) hrun
  obtain ⟨-, hreturned, hsame⟩ := ensureProject_agree hruns
  obtain ⟨hhas, hok⟩ := hreturned "shop" "" r List.mem_cons_self
  obtain ⟨-, hok'⟩ := hreturned "shop" "" r' (List.mem_cons_of_mem _ List.mem_cons_self)
  obtain ⟨id, rfl⟩ := hok trivial
  obtain ⟨id', rfl⟩ := hok' trivial
  have hid : id = id' := hsame "shop" "" "" id id' List.mem_cons_self
    (List.mem_cons_of_mem _ List.mem_cons_self)
  exact ⟨db, _, _, hruns, id, rfl, by rw [hid], hhas id rfl⟩

end Interleavings

end BatRewind
