import BatRewind.Auth.Service

/-!
# Revocation is final

`EnsureAPIKey` looks for an active and unexpired record only, so a revoked key takes the path of
creation; the unique hash of the revoked record refuses it there.

* `Usable`: a record with the hash of the key exists, is active and has not expired.
  **`validateAPIKey_iff`**: `ValidateAPIKey` succeeds exactly then.
* `Revoked`: kept by every statement, hence by every call (`KeyRuns.revoked`).
* **`api_keys_sound`**: unique hashes, validation, provisioning and revocation over whole runs.
-/

namespace BatRewind

open Tables Effects Effects.Prog

/-! ## Statements -/

section Statements

variable {E : AuthEnv → Prop} {db db' : AuthDB}

theorem authAnswers_timeNow {r : Time} :
    AuthAnswers E .timeNow db db' r ↔ db' = db ∧ ∃ e, E e ∧ r = e.now := by
  constructor
  · rintro ⟨e, hE, h⟩
    obtain ⟨h₁, h₂⟩ := Prod.mk.inj h
    exact ⟨h₁.symm, e, hE, h₂.symm⟩
  · rintro ⟨rfl, e, hE, rfl⟩
    exact ⟨e, hE, rfl⟩

/-- A statement is refused, fails on its own, or does what `AuthStmt.run` says. -/
theorem AuthAnswers.sql_cases {q : AuthStmt} {r : Except DBError (AuthAnswer q)}
    (h : AuthAnswers E (.sql q) db db' r) :
    (∃ e text, E e ∧ e.fault = some text ∧ db' = db ∧ r = .error (.other text)) ∨
      (∃ e err, E e ∧ q.run e db = .error err ∧ db' = db ∧ r = .error err) ∨
      ∃ e a, E e ∧ q.run e db = .ok (db', a) ∧ r = .ok a := by
  obtain ⟨e, hE, h⟩ := h
  unfold authExec at h
  cases hf : e.fault with
  | some text =>
    rw [hf] at h
    obtain ⟨h₁, h₂⟩ := Prod.mk.inj h
    exact Or.inl ⟨e, text, hE, hf, h₁.symm, h₂.symm⟩
  | none =>
    rw [hf] at h
    dsimp only at h
    rcases hr : q.run e db with err | ⟨db₁, a⟩ <;> rw [hr] at h <;> obtain ⟨h₁, h₂⟩ := Prod.mk.inj h
    · exact Or.inr (Or.inl ⟨e, err, hE, hr, h₁.symm, h₂.symm⟩)
    · exact Or.inr (Or.inr ⟨e, a, hE, h₁ ▸ hr, h₂.symm⟩)

theorem AuthAnswers.accepted {q : AuthStmt} {a : AuthAnswer q}
    (h : AuthAnswers E (.sql q) db db' (.ok a)) : ∃ e, E e ∧ q.run e db = .ok (db', a) := by
  rcases h.sql_cases with ⟨_, _, -, -, -, hr⟩ | ⟨_, _, -, -, -, hr⟩ | ⟨e, _, hE, hrun, hr⟩
  · cases hr
  · cases hr
  · cases hr
    exact ⟨e, hE, hrun⟩

theorem AuthDB.insertKey_rows {k : APIKey} (h : db.insertKey k = some db') :
    db'.apiKeys.rows = db.apiKeys.rows ++ [k] := by
  unfold AuthDB.insertKey at h
  split at h
  next t ht =>
    split_ifs at h
    cases h
    exact Table.rows_of_insert ht
  next => cases h

theorem AuthDB.insertProject_apiKeys {p : Project} (h : db.insertProject p = some db') :
    db'.apiKeys = db.apiKeys := by
  unfold AuthDB.insertProject at h
  split at h
  next t ht =>
    split_ifs at h
    cases h
    rfl
  next => cases h

/-- **What a call may do to the keys**: nothing, insert one, deactivate one or give one a
project. -/
inductive KeyChange (db db' : AuthDB) : AuthCall → Prop
  | keep (c : AuthCall) (h : db'.apiKeys = db.apiKeys) : KeyChange db db' c
  | insert (k : APIKey) (h : db'.apiKeys.rows = db.apiKeys.rows ++ [k]) :
      KeyChange db db' (.sql (.createAPIKey k))
  | revoke (id : String) (h : db'.apiKeys.rows =
      db.apiKeys.rows.map fun k => if k.id = id then { k with active := false } else k) :
      KeyChange db db' (.sql (.revokeAPIKey id))
  | project (id projectID : String) (h : db'.apiKeys.rows =
      db.apiKeys.rows.map fun k => if k.id = id then { k with projectID := projectID } else k) :
      KeyChange db db' (.sql (.updateAPIKeyProject id projectID))

theorem AuthAnswers.keyChange {c : AuthCall} {r : AuthResp c} (h : AuthAnswers E c db db' r) :
    KeyChange db db' c := by
  cases c with
  | timeNow | uuidNew | randRead =>
    obtain ⟨e, -, h⟩ := h
    obtain ⟨rfl, -⟩ := Prod.mk.inj h
    exact .keep _ rfl
  | sql q =>
    rcases h.sql_cases with ⟨_, _, -, -, rfl, -⟩ | ⟨_, _, -, -, rfl, -⟩ | ⟨e, a, -, hrun, -⟩
    · exact .keep _ rfl
    · exact .keep _ rfl
    cases q with
    | createAPIKey k =>
      simp only [AuthStmt.run] at hrun
      split at hrun
      next db₁ hk =>
        cases hrun
        exact .insert k (AuthDB.insertKey_rows hk)
      next => cases hrun
    | revokeAPIKey id =>
      cases hrun
      exact .revoke id rfl
    | updateAPIKeyProject id projectID =>
      cases hrun
      exact .project id projectID rfl
    | createProject p =>
      simp only [AuthStmt.run] at hrun
      split at hrun
      next db₁ hp =>
        cases hrun
        exact .keep _ (AuthDB.insertProject_apiKeys hp)
      next => cases hrun
    | selectActiveByHash keyHash | selectAPIKey id | selectProjectBySlug slug =>
      simp only [AuthStmt.run] at hrun
      split at hrun <;> cases hrun
      exact .keep _ rfl

end Statements

/-! ## Validation -/

/-- A record with the hash exists, is active and has not expired at time `t`. -/
def Usable (keyHash : String) (t : Time) (db : AuthDB) : Prop :=
  ∃ k ∈ db.apiKeys.rows, k.keyHash = keyHash ∧ k.active = true ∧ ∀ e, k.expiresAt = some e → t ≤ e

/-- The record with the hash is not active. -/
def Revoked (keyHash : String) (db : AuthDB) : Prop :=
  ∃ k ∈ db.apiKeys.rows, k.keyHash = keyHash ∧ k.active = false

theorem AuthDB.eq_of_hash_eq (db : AuthDB) {k k' : APIKey} (hk : k ∈ db.apiKeys.rows)
    (hk' : k' ∈ db.apiKeys.rows) (h : k.keyHash = k'.keyHash) : k = k' :=
  List.inj_on_of_nodup_map db.hash_unique hk hk' h

theorem Revoked.not_active {keyHash : String} {db : AuthDB} (h : Revoked keyHash db) {k : APIKey}
    (hk : k ∈ db.apiKeys.rows) (hhash : k.keyHash = keyHash) : k.active = false := by
  obtain ⟨k', hk', hhash', hactive⟩ := h
  rw [db.eq_of_hash_eq hk hk' (hhash.trans hhash'.symm)]
  exact hactive

section Lookup

variable {E : AuthEnv → Prop} {db db' : AuthDB} {keyHash : String}

theorem selectActiveByHash_ok {k : APIKey}
    (h : AuthAnswers E (.sql (.selectActiveByHash keyHash)) db db' (.ok k)) :
    db' = db ∧ k ∈ db.apiKeys.rows ∧ k.keyHash = keyHash ∧ k.active = true := by
  obtain ⟨e, -, hrun⟩ := h.accepted
  simp only [AuthStmt.run] at hrun
  split at hrun
  next k' hk' =>
    cases hrun
    have hprop := List.find?_some hk'
    simp only [Bool.and_eq_true, decide_eq_true_eq] at hprop
    exact ⟨rfl, List.mem_of_find?_eq_some hk', hprop⟩
  next => cases hrun

/-- The lookup returns the active record, not expired at a clock reading of the call. -/
theorem getAPIKeyByHash_ok {k : APIKey}
    (h : Runs (AuthAnswers E) (Auth.Repository.getAPIKeyByHash keyHash).run db db' (.ok k)) :
    db' = db ∧ k ∈ db.apiKeys.rows ∧ k.keyHash = keyHash ∧ k.active = true ∧
      ∀ t, k.expiresAt = some t → ∃ e, E e ∧ e.now ≤ t := by
  rcases runs_bind_except.mp h with ⟨db₁, k', h₁, h₂⟩ | ⟨err, -, hr⟩
  swap
  · cases hr
  obtain ⟨r₀, h₀, hr₀⟩ := runs_adapt.mp h₁
  cases r₀ with
  | error err => cases hr₀
  | ok k'' =>
    cases hr₀
    obtain ⟨rfl, hk, hhash, hactive⟩ := selectActiveByHash_ok (runs_perform.mp h₀)
    cases hexp : k'.expiresAt with
    | none =>
      rw [hexp] at h₂
      obtain ⟨rfl, hr⟩ := h₂
      cases hr
      exact ⟨rfl, hk, hhash, hactive, fun t ht => by rw [hexp] at ht; cases ht⟩
    | some t =>
      rw [hexp] at h₂
      rcases runs_bind_except.mp h₂ with ⟨db₂, now, h₃, h₄⟩ | ⟨err, -, hr⟩
      · obtain ⟨_, h₅, hr⟩ := runs_lift.mp h₃
        cases hr
        obtain ⟨rfl, e, hE, rfl⟩ := authAnswers_timeNow.mp (runs_perform.mp h₅)
        split_ifs at h₄ with hlt
        · obtain ⟨-, hr⟩ := h₄
          cases hr
        · obtain ⟨rfl, hr⟩ := h₄
          cases hr
          refine ⟨rfl, hk, hhash, hactive, fun t' ht' => ⟨e, hE, ?_⟩⟩
          rw [hexp] at ht'
          cases ht'
          exact not_lt.mp hlt
      · cases hr

/-- With the database reachable, an active record is found. -/
theorem selectActiveByHash_reachable {t : Time} {k : APIKey} (hk : k ∈ db.apiKeys.rows)
    (hhash : k.keyHash = keyHash) (hactive : k.active = true) {r : Except DBError APIKey}
    (h : ReachableAt t (.sql (.selectActiveByHash keyHash)) db db' r) : db' = db ∧ r = .ok k := by
  rcases AuthAnswers.sql_cases h with
    ⟨e, _, hE, hf, -⟩ | ⟨e, err, hE, hrun, rfl, rfl⟩ | ⟨e, k', hE, hrun, rfl⟩
  · rw [hE.2] at hf
    cases hf
  · simp only [AuthStmt.run] at hrun
    split at hrun
    · cases hrun
    · next hnone =>
        have hmatch := List.find?_eq_none.mp hnone k hk
        simp [hhash, hactive] at hmatch
  · obtain ⟨rfl, hk', hhash', -⟩ := selectActiveByHash_ok h
    exact ⟨rfl, by rw [db'.eq_of_hash_eq hk' hk (hhash'.trans hhash.symm)]⟩

/-- With the database reachable, the lookup fails only if there is no usable record. -/
theorem getAPIKeyByHash_error {t : Time} {err : AuthError}
    (h : Runs (ReachableAt t) (Auth.Repository.getAPIKeyByHash keyHash).run db db' (.error err)) :
    ¬ Usable keyHash t db := by
  rintro ⟨k, hk, hhash, hactive, hexp⟩
  rcases runs_bind_except.mp h with ⟨db₁, k', h₁, h₂⟩ | ⟨err', h₁, -⟩
  · obtain ⟨r₀, h₀, hr₀⟩ := runs_adapt.mp h₁
    obtain ⟨rfl, rfl⟩ := selectActiveByHash_reachable hk hhash hactive (runs_perform.mp h₀)
    cases hr₀
    cases he : k.expiresAt with
    | none =>
      rw [he] at h₂
      obtain ⟨-, hr⟩ := h₂
      cases hr
    | some t' =>
      rw [he] at h₂
      rcases runs_bind_except.mp h₂ with ⟨db₂, now, h₃, h₄⟩ | ⟨err', h₃, -⟩
      · obtain ⟨_, h₅, hr⟩ := runs_lift.mp h₃
        cases hr
        obtain ⟨rfl, e, hE, rfl⟩ := authAnswers_timeNow.mp (runs_perform.mp h₅)
        rw [if_neg (not_lt.mpr (hE.1 ▸ hexp t' he))] at h₄
        obtain ⟨-, hr⟩ := h₄
        cases hr
      · obtain ⟨_, -, hr⟩ := runs_lift.mp h₃
        cases hr
  · obtain ⟨r₀, h₀, hr₀⟩ := runs_adapt.mp h₁
    obtain ⟨-, rfl⟩ := selectActiveByHash_reachable hk hhash hactive (runs_perform.mp h₀)
    cases hr₀

end Lookup

section Validate

variable (sha256 : Bytes → Bytes) {db db' : AuthDB} {rawKey name : String} {t : Time}

/-- **`ValidateAPIKey` succeeds exactly if there is a usable record**, and fails else. -/
theorem validateAPIKey_iff (rawKey : String) (t : Time) (db : AuthDB) :
    ((∃ db' k, Runs (ReachableAt t) (Auth.validateAPIKey sha256 rawKey).run db db' (.ok k)) ↔
        Usable (Auth.hashOf sha256 rawKey) t db) ∧
      ((∃ db' err,
          Runs (ReachableAt t) (Auth.validateAPIKey sha256 rawKey).run db db' (.error err)) ↔
        ¬ Usable (Auth.hashOf sha256 rawKey) t db) := by
  have hok : ∀ db' k, Runs (ReachableAt t) (Auth.validateAPIKey sha256 rawKey).run db db' (.ok k) →
      Usable (Auth.hashOf sha256 rawKey) t db := by
    intro db' k h
    obtain ⟨-, hk, hhash, hactive, hexp⟩ := getAPIKeyByHash_ok h
    refine ⟨k, hk, hhash, hactive, fun t' ht' => ?_⟩
    obtain ⟨e, hE, hle⟩ := hexp t' ht'
    exact hE.1 ▸ hle
  -- the call always returns
  let e : AuthEnv := ⟨none, "", t, "", .ok []⟩
  have hrun := runs_eval (T := ReachableAt t) (h := authExec e) (fun c s => ⟨e, ⟨rfl, rfl⟩, rfl⟩)
    (Auth.validateAPIKey sha256 rawKey).run db
  generalize (Prog.eval (authExec e) (Auth.validateAPIKey sha256 rawKey).run db) = x at hrun
  obtain ⟨db', r⟩ := x
  refine ⟨⟨?_, fun hu => ?_⟩, ?_, fun hu => ?_⟩
  · rintro ⟨db', k, h⟩
    exact hok db' k h
  · cases r with
    | ok k => exact ⟨db', k, hrun⟩
    | error err => exact absurd hu (getAPIKeyByHash_error hrun)
  · rintro ⟨db', err, h⟩
    exact getAPIKeyByHash_error h
  · cases r with
    | ok k => exact absurd (hok db' k hrun) hu
    | error err => exact ⟨db', err, hrun⟩

/-- A key that `EnsureAPIKey` accepted was there, or was created. -/
theorem ensureAPIKey_ok {E : AuthEnv → Prop}
    (h : Runs (AuthAnswers E) (Auth.ensureAPIKey sha256 rawKey name).run db db' (.ok ())) :
    ∃ k ∈ db'.apiKeys.rows, k.keyHash = Auth.hashOf sha256 rawKey ∧ k.active = true ∧
      (k.expiresAt = none ∨
        db' = db ∧ ∀ t, k.expiresAt = some t → ∃ e, E e ∧ e.now ≤ t) := by
  rcases runs_bind_except.mp h with ⟨db₁, r, h₁, h₂⟩ | ⟨err, -, hr⟩
  swap
  · cases hr
  obtain ⟨r', h₀, hr⟩ := runs_lift.mp h₁
  cases hr
  cases r with
  | ok k =>
    obtain ⟨rfl, hk, hhash, hactive, hexp⟩ := getAPIKeyByHash_ok h₀
    obtain ⟨rfl, -⟩ := h₂
    exact ⟨k, hk, hhash, hactive, Or.inr ⟨rfl, hexp⟩⟩
  | error err =>
    rcases runs_bind_except.mp h₂ with ⟨db₂, id, -, h₃⟩ | ⟨err', -, hr⟩
    swap
    · cases hr
    rcases runs_bind_except.mp h₃ with ⟨db₃, now, -, h₄⟩ | ⟨err', -, hr⟩
    swap
    · cases hr
    obtain ⟨r₀, h₅, hr₀⟩ := runs_adapt.mp h₄
    cases r₀ with
    | error err' => cases hr₀
    | ok _ =>
      obtain ⟨e, -, hrun⟩ := (runs_perform.mp h₅ : AuthAnswers E _ _ _ _).accepted
      simp only [AuthStmt.run] at hrun
      split at hrun
      next db₄ hins =>
        cases hrun
        refine ⟨Auth.newKey sha256 id rawKey "" name now, ?_, rfl, rfl, Or.inl rfl⟩
        rw [AuthDB.insertKey_rows hins]
        exact List.mem_append_right _ (List.mem_singleton_self _)
      next => cases hrun

end Validate

/-! ## Runs -/

section Runs

variable {sha256 : Bytes → Bytes} {db db' : AuthDB}

theorem KeyChange.revoked {c : AuthCall} {keyHash : String} (h : KeyChange db db' c)
    (hr : Revoked keyHash db) : Revoked keyHash db' := by
  obtain ⟨k, hk, hhash, hactive⟩ := hr
  cases h with
  | keep _ h => exact ⟨k, h ▸ hk, hhash, hactive⟩
  | insert k' h => exact ⟨k, h ▸ List.mem_append_left _ hk, hhash, hactive⟩
  | revoke id h =>
    refine ⟨_, h ▸ List.mem_map_of_mem hk, ?_, ?_⟩ <;> split_ifs
    · exact hhash
    · exact hhash
    · rfl
    · exact hactive
  | project id projectID h =>
    refine ⟨_, h ▸ List.mem_map_of_mem hk, ?_, ?_⟩ <;> split_ifs
    · exact hhash
    · exact hhash
    · exact hactive
    · exact hactive

/-- **A revoked key stays revoked**, whatever calls follow. -/
theorem KeyRuns.revoked {calls : List KeyCall} {keyHash : String}
    (h : KeyRuns sha256 calls db db') (hr : Revoked keyHash db) : Revoked keyHash db' := by
  induction calls generalizing db with
  | nil => exact h ▸ hr
  | cons c calls ih =>
    obtain ⟨db₁, r, h₁, h₂⟩ := h
    have hkeeps : Preserves AnyAuthAnswer (Revoked keyHash) (c.program sha256) :=
      (allCalls_of_forall (P := fun _ => True) (fun _ => trivial) _).preserves
        fun c s s' r _ hs hT => (AuthAnswers.keyChange hT).revoked hs
    exact ih h₂ (hkeeps db db₁ r hr h₁)

/-- A key that the call creates does not expire. -/
def AuthCall.NoExpiry : AuthCall → Prop
  | .sql (.createAPIKey k) => k.expiresAt = none
  | _ => True

theorem KeyChange.noExpiry {c : AuthCall} (h : KeyChange db db' c) (hc : c.NoExpiry)
    (hdb : ∀ k ∈ db.apiKeys.rows, k.expiresAt = none) :
    ∀ k ∈ db'.apiKeys.rows, k.expiresAt = none := by
  cases h with
  | keep _ h => exact h ▸ hdb
  | insert k' h =>
    intro k hk
    rw [h, List.mem_append, List.mem_singleton] at hk
    rcases hk with hk | rfl
    · exact hdb k hk
    · exact hc
  | revoke id h | project id projectID h =>
    intro k hk
    rw [h] at hk
    obtain ⟨k₀, hk₀, rfl⟩ := List.mem_map.mp hk
    split_ifs
    · exact hdb k₀ hk₀
    · exact hdb k₀ hk₀

section NoExpiry

variable {A : (c : AuthCall) → AuthResp c → Prop} {P : AuthCall → Prop}

theorem allCalls_authSql {q : AuthStmt} (h : P (.sql q)) {ε : Type} (g : DBError → ε) :
    AllCalls A P (ExceptT.adapt g (Auth.sql q)).run :=
  AllCalls.adapt (allCalls_perform h) g

theorem allCalls_authLift {c : AuthCall} (h : P c) :
    AllCalls A P (ExceptT.lift (perform (R := AuthResp) c) : AuthSvc (AuthResp c)).run :=
  AllCalls.lift (allCalls_perform h)

theorem allCalls_getAPIKeyByHash (keyHash : String) :
    AllCalls A AuthCall.NoExpiry (Auth.Repository.getAPIKeyByHash keyHash).run := by
  refine (allCalls_authSql trivial _).bind_except fun k => ?_
  cases k.expiresAt with
  | none => exact allCalls_pure _
  | some t =>
    refine (allCalls_authLift trivial).bind_except fun now => ?_
    split_ifs
    · exact allCalls_pure _
    · exact allCalls_pure _

theorem allCalls_adoptKey (apiKeyID projectID : String) :
    AllCalls A AuthCall.NoExpiry (Auth.adoptKey apiKeyID projectID).run := by
  unfold Auth.adoptKey
  split_ifs
  · refine (AllCalls.lift (allCalls_authSql trivial _)).bind_except fun r => ?_
    cases r with
    | error err => exact allCalls_pure _
    | ok key =>
      dsimp only
      split_ifs
      · exact (AllCalls.lift (allCalls_authSql trivial _)).bind_except fun _ => allCalls_pure _
      · exact allCalls_pure _
  · exact allCalls_pure _

theorem allCalls_ensureProject (serviceName apiKeyID : String) :
    AllCalls A AuthCall.NoExpiry (Auth.ensureProject serviceName apiKeyID).run := by
  refine (AllCalls.lift (allCalls_authSql trivial _)).bind_except fun r => ?_
  cases r with
  | ok project => exact allCalls_pure _
  | error err =>
    dsimp only
    split_ifs
    · exact allCalls_pure _
    refine (allCalls_authLift trivial).bind_except fun id => ?_
    refine (allCalls_authLift trivial).bind_except fun now => ?_
    refine (AllCalls.lift (allCalls_authSql trivial _)).bind_except fun r => ?_
    cases r with
    | error createErr =>
      refine (AllCalls.lift (allCalls_authSql trivial _)).bind_except fun r => ?_
      cases r <;> exact allCalls_pure _
    | ok _ => exact (allCalls_adoptKey _ _).bind_except fun _ => allCalls_pure _

theorem noExpiry_newKey (id rawKey projectID name : String) (now : Time) :
    AuthCall.NoExpiry (.sql (.createAPIKey (Auth.newKey sha256 id rawKey projectID name now))) :=
  rfl

theorem allCalls_noExpiry (c : KeyCall) :
    AllCalls A AuthCall.NoExpiry (c.program sha256) := by
  cases c with
  | createAPIKey projectID name =>
    refine AllCalls.bind_except ?_ fun _ => allCalls_pure _
    refine (AllCalls.adapt (allCalls_perform trivial) _).bind_except fun raw => ?_
    refine (allCalls_authLift trivial).bind_except fun id => ?_
    refine (allCalls_authLift trivial).bind_except fun now => ?_
    exact (allCalls_authSql (noExpiry_newKey _ _ _ _ _) _).bind_except fun _ => allCalls_pure _
  | ensureAPIKey rawKey name =>
    refine (AllCalls.lift (allCalls_getAPIKeyByHash _)).bind_except fun r => ?_
    cases r with
    | ok k => exact allCalls_pure _
    | error err =>
      refine (allCalls_authLift trivial).bind_except fun id => ?_
      exact (allCalls_authLift trivial).bind_except fun now =>
        allCalls_authSql (noExpiry_newKey _ _ _ _ _) _
  | revokeAPIKey id => exact allCalls_authSql trivial _
  | updateAPIKeyProject keyID projectID => exact allCalls_authSql trivial _
  | ensureProject serviceName apiKeyID =>
    exact (allCalls_ensureProject serviceName apiKeyID).bind_except fun _ => allCalls_pure _

/-- No call creates a key that expires. -/
theorem KeyRuns.noExpiry {calls : List KeyCall} (h : KeyRuns sha256 calls db db')
    (hdb : ∀ k ∈ db.apiKeys.rows, k.expiresAt = none) :
    ∀ k ∈ db'.apiKeys.rows, k.expiresAt = none := by
  induction calls generalizing db with
  | nil => exact h ▸ hdb
  | cons c calls ih =>
    obtain ⟨db₁, r, h₁, h₂⟩ := h
    have hkeeps : Preserves AnyAuthAnswer (fun db => ∀ k ∈ db.apiKeys.rows, k.expiresAt = none)
        (c.program sha256) := (allCalls_noExpiry c).preserves
      fun c s s' r hc hs hT => (AuthAnswers.keyChange hT).noExpiry hc hs
    exact ih h₂ (hkeeps db db₁ r hdb h₁)

end NoExpiry

/-- The record of a key is not active once its `RevokeAPIKey` returned. -/
theorem revokeAPIKey_revoked {k : APIKey} (hk : k ∈ db.apiKeys.rows)
    (h : Runs AnyAuthAnswer (Auth.Repository.revokeAPIKey k.id).run db db' (.ok ())) :
    Revoked k.keyHash db' := by
  obtain ⟨r₀, h₀, hr₀⟩ := runs_adapt.mp h
  cases r₀ with
  | error err => cases hr₀
  | ok _ =>
    obtain ⟨e, -, hrun⟩ := (runs_perform.mp h₀ : AnyAuthAnswer _ _ _ _).accepted
    cases hrun
    exact ⟨{ k with active := false }, List.mem_map.mpr ⟨k, hk, if_pos rfl⟩, rfl, rfl⟩

theorem Revoked.not_validates {keyHash : String} (h : Revoked keyHash db) {k : APIKey} :
    ¬ Runs AnyAuthAnswer (Auth.Repository.getAPIKeyByHash keyHash).run db db' (.ok k) := by
  intro hrun
  obtain ⟨-, hk, hhash, hactive, -⟩ := getAPIKeyByHash_ok hrun
  rw [h.not_active hk hhash] at hactive
  cases hactive

/-- **API keys over whole runs.** From any tables and after any calls: a hash has at most one
record; `ValidateAPIKey` succeeds exactly for a usable record; a key that `EnsureAPIKey` accepted
validates at the clock reading of the call, and at any other if no key of the first tables expires;
a revoked key never validates again, whatever calls follow. -/
theorem api_keys_sound {calls : List KeyCall} {db₀ db : AuthDB}
    (h : KeyRuns sha256 calls db₀ db) :
    (∀ k ∈ db.apiKeys.rows, ∀ k' ∈ db.apiKeys.rows, k.keyHash = k'.keyHash → k = k') ∧
    (∀ rawKey t,
      ((∃ db' k, Runs (ReachableAt t) (Auth.validateAPIKey sha256 rawKey).run db db' (.ok k)) ↔
        Usable (Auth.hashOf sha256 rawKey) t db) ∧
      ((∃ db' err,
          Runs (ReachableAt t) (Auth.validateAPIKey sha256 rawKey).run db db' (.error err)) ↔
        ¬ Usable (Auth.hashOf sha256 rawKey) t db)) ∧
    (∀ rawKey name t db',
      Runs (ClockAt t) (Auth.ensureAPIKey sha256 rawKey name).run db db' (.ok ()) →
      ∃ db'' k, Runs (ReachableAt t) (Auth.validateAPIKey sha256 rawKey).run db' db'' (.ok k)) ∧
    ((∀ k ∈ db₀.apiKeys.rows, k.expiresAt = none) → ∀ rawKey name db',
      Runs AnyAuthAnswer (Auth.ensureAPIKey sha256 rawKey name).run db db' (.ok ()) → ∀ t,
      ∃ db'' k, Runs (ReachableAt t) (Auth.validateAPIKey sha256 rawKey).run db' db'' (.ok k)) ∧
    ∀ rawKey, ∀ k ∈ db.apiKeys.rows, k.keyHash = Auth.hashOf sha256 rawKey → ∀ db₁,
      Runs AnyAuthAnswer (Auth.Repository.revokeAPIKey k.id).run db db₁ (.ok ()) →
      ∀ later db₂, KeyRuns sha256 later db₁ db₂ → ∀ db₃ k',
      ¬ Runs AnyAuthAnswer (Auth.validateAPIKey sha256 rawKey).run db₂ db₃ (.ok k') := by
  refine ⟨fun k hk k' hk' => db.eq_of_hash_eq hk hk',
    fun rawKey t => validateAPIKey_iff sha256 rawKey t db, ?_, ?_, ?_⟩
  · intro rawKey name t db' hrun
    obtain ⟨k, hk, hhash, hactive, hexp⟩ := ensureAPIKey_ok sha256 hrun
    refine (validateAPIKey_iff sha256 rawKey t db').1.mpr ⟨k, hk, hhash, hactive, ?_⟩
    intro t' ht'
    rcases hexp with hnone | ⟨-, hexp⟩
    · rw [hnone] at ht'
      cases ht'
    · obtain ⟨e, hE, hle⟩ := hexp t' ht'
      exact hE ▸ hle
  · intro hdb₀ rawKey name db' hrun t
    obtain ⟨k, hk, hhash, hactive, hexp⟩ := ensureAPIKey_ok sha256 hrun
    refine (validateAPIKey_iff sha256 rawKey t db').1.mpr ⟨k, hk, hhash, hactive, ?_⟩
    intro t' ht'
    rcases hexp with hnone | ⟨rfl, -⟩
    · rw [hnone] at ht'
      cases ht'
    · rw [h.noExpiry hdb₀ k hk] at ht'
      cases ht'
  · intro rawKey k hk hhash db₁ hrevoke later db₂ hlater db₃ k'
    have hrev := hlater.revoked (revokeAPIKey_revoked hk hrevoke)
    rw [hhash] at hrev
    exact hrev.not_validates

/-- SHA-256, as far as the sample key needs it. -/
def sampleSha256 : Bytes → Bytes := fun _ =>
  [190, 253, 187, 211, 220, 32, 144, 63, 24, 171, 251, 176, 247, 58, 176, 141,
    125, 29, 34, 232, 178, 67, 235, 123, 108, 95, 172, 34, 79, 224, 25, 130]

/-- A demo key that is provisioned, revoked and provisioned again at the next start. -/
theorem api_keys_sound_demo : ∃ db db₁,
    KeyRuns sampleSha256 [.ensureAPIKey "rew_demo" "Demo"] .empty db ∧
    Runs AnyAuthAnswer (Auth.Repository.revokeAPIKey sampleID).run db db₁ (.ok ()) ∧
    ∀ db₂, KeyRuns sampleSha256 [.ensureAPIKey "rew_demo" "Demo"] db₁ db₂ → ∀ db₃ k,
      ¬ Runs AnyAuthAnswer (Auth.validateAPIKey sampleSha256 "rew_demo").run db₂ db₃ (.ok k) := by
  let e : AuthEnv := ⟨none, "", 0, sampleID, .ok []⟩
  have hany : ∀ c db, AnyAuthAnswer c db (authExec e c db).1 (authExec e c db).2 :=
    fun c db => ⟨e, trivial, rfl⟩
  have h₁ := runs_eval hany (Auth.ensureAPIKey sampleSha256 "rew_demo" "Demo").run .empty
  have h₂ := runs_eval hany (Auth.Repository.revokeAPIKey sampleID).run
    (Prog.eval (authExec e) (Auth.ensureAPIKey sampleSha256 "rew_demo" "Demo").run .empty).1
  have hruns : KeyRuns sampleSha256 [.ensureAPIKey "rew_demo" "Demo"] .empty _ :=
    ⟨_, _, h₁, rfl⟩
  refine ⟨_, _, hruns, h₂, fun db₂ hlater => ?_⟩
  exact (api_keys_sound hruns).2.2.2.2 "rew_demo"
    (Auth.newKey sampleSha256 sampleID "rew_demo" "" "Demo" 0) (List.mem_singleton_self _) rfl _ h₂
    _ db₂ hlater

end Runs

end BatRewind
