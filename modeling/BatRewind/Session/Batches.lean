import Mathlib.Data.List.Infix
import BatRewind.Lib.Paging
import BatRewind.Session.Purge
import BatRewind.Session.Service

/-!
# Inserting events, statement by statement

`Repository.InsertEvents` is `CreateInBatches(events, 100)` of the library gorm, a parameter here. A
row has seven columns, each bound as a parameter of its own, and a statement takes at most `P`
parameters.

* `CreatesInBatches`: what gorm promises; `insertEvents`: the call; `Batches.healthy P`,
  `Batches.faulty P`: the database.
* `Inserts db es db'`: what the one statement `Stmt.insertEvents` does; `inserts_append`: it may be
  cut anywhere.
* `executed_createBatches`: the statements of the loop; `triple_createBatches`: what it does inside a
  transaction.
* **`insertEvents_exact`**: the batches do what the one statement does, for any number of events, or
  nothing.
-/

namespace BatRewind

open Encoding Tables Transactions Effects Effects.Prog Paging

namespace Batches

/-! ## Statements -/

/-- The size of a batch. -/
def batchSize : ℕ := 100

/-- `INSERT`s of events. An accepted one may violate a constraint. -/
@[reducible] def InsertAnswer (_ : List ReplayEvent) : Type := Except String Unit

/-- A call of the connection: events are inserted, or a transaction begins or ends. -/
abbrev InsertCall := Transactions.Call (List ReplayEvent)

/-- The answer to a call. -/
abbrev InsertResp : InsertCall → Type := Transactions.Resp InsertAnswer

/-- The bound parameters of a call: `id`, `session_id`, `seq`, `type`, `data`, `timestamp` and
`created_at` of every row. -/
def params : InsertCall → ℕ
  | .exec es => 7 * es.length
  | _ => 0

/-- **What an `INSERT` does.** -/
def effect (es : List ReplayEvent) (db db' : DB) (r : InsertAnswer es) : Prop :=
  ∃ e : Env, (∃ a, (Stmt.insertEvents es).run e db = .ok (db', a) ∧ r = .ok ()) ∨
    ∃ msg, (Stmt.insertEvents es).run e db = .error msg ∧ db' = db ∧ r = .error msg

/-- A database that refuses a statement only if it has too many parameters. -/
def healthy (P : ℕ) : Handler InsertCall InsertResp (Conn DB) :=
  handler effect (fun q => params q ≤ P) fun q => P < params q

/-- A database that may refuse any statement. -/
def faulty (P : ℕ) : Handler InsertCall InsertResp (Conn DB) :=
  handler effect (fun q => params q ≤ P) fun _ => True

/-- An insert for each of the batches, up to the first that is refused. -/
def createBatches : List (List ReplayEvent) →
    Prog InsertCall InsertResp (Except String Unit)
  | [] => pure (.ok ())
  | b :: bs => do
    match ← perform (R := InsertResp) (.exec b) with
    | .error e | .ok (.error e) => pure (.error e)
    | .ok (.ok ()) => createBatches bs

/-- **What gorm promises of `CreateInBatches`**: the rows are inserted in their order, at most `n` by
one insert, and a transaction holds the inserts if there are several. -/
def CreatesInBatches
    (createInBatches : ℕ → List ReplayEvent → Prog InsertCall InsertResp (Except String Unit)) :
    Prop :=
  ∀ n events, 0 < n → ∃ bs : List (List ReplayEvent), bs.flatten = events ∧
    (∀ b ∈ bs, b ≠ [] ∧ b.length ≤ n) ∧
    (bs.length ≤ 1 ∧ createInBatches n events = createBatches bs ∨
      createInBatches n events = transaction (createBatches bs))

/-- **Insert events** in batches. -/
def insertEvents
    (createInBatches : ℕ → List ReplayEvent → Prog InsertCall InsertResp (Except String Unit))
    (events : List ReplayEvent) : Prog InsertCall InsertResp (Except String Unit) :=
  createInBatches batchSize events

/-! ## The one statement -/

/-- The events are inserted by one statement. -/
def Inserts (db : DB) (es : List ReplayEvent) (db' : DB) : Prop :=
  ∃ e a, (Stmt.insertEvents es).run e db = .ok (db', a)

section Inserts

variable {db db' : DB} {es : List ReplayEvent} {msg : String}

theorem inserts_iff : Inserts db es db' ↔ ∃ t, db.events.insert es = some t ∧
    (∀ ev ∈ es, ev.sessionID ∈ db.sessions.keys) ∧ db'.sessions = db.sessions ∧ db'.events = t ∧
      db'.failed = db.failed := by
  constructor
  · rintro ⟨e, a, h⟩
    simp only [Stmt.run] at h
    split_ifs at h with hes
    split at h
    next t ht =>
      cases h
      exact ⟨t, ht, hes, rfl, rfl, rfl⟩
    next => cases h
  · rintro ⟨t, ht, hes, h₁, h₂, h₃⟩
    refine ⟨.quiet none 0 fun _ => "", (), ?_⟩
    have hdb : db' = db.withEvents t es (Table.rows_of_insert ht) hes := DB.ext h₁ h₂ h₃
    simp only [Stmt.run]
    rw [dif_pos hes]
    split
    next t' ht' =>
      obtain rfl : t' = t := Option.some.inj (ht'.symm.trans ht)
      rw [hdb]
    next hnone =>
      rw [hnone] at ht
      cases ht

/-- What is inserted does not depend on the environment. -/
theorem Inserts.unique {db'' : DB} (h : Inserts db es db') (h' : Inserts db es db'') :
    db' = db'' := by
  obtain ⟨t, ht, -, h₁, h₂, h₃⟩ := inserts_iff.mp h
  obtain ⟨t', ht', -, h₁', h₂', h₃'⟩ := inserts_iff.mp h'
  obtain rfl : t = t' := Option.some.inj (ht.symm.trans ht')
  exact DB.ext (h₁.trans h₁'.symm) (h₂.trans h₂'.symm) (h₃.trans h₃'.symm)

/-- A statement that violates a constraint in one environment does so in all. -/
theorem not_inserts_of_error {e : Env} (h : (Stmt.insertEvents es).run e db = .error msg) :
    ¬ Inserts db es db' := by
  rintro ⟨e', a, h'⟩
  obtain ⟨x, hx⟩ := (Stmt.run_ok_iff (e := e)).mpr (Stmt.run_ok_iff.mp ⟨_, h'⟩)
  rw [h] at hx
  cases hx

theorem inserts_nil : Inserts db [] db' ↔ db' = db := by
  have hinsert : db.events.insert [] = some db.events := by
    have hrows : db.events.rows ++ [] = db.events.rows := List.append_nil _
    rw [Table.insert_eq_some (by rw [hrows]; exact db.events.nodup)]
    exact congrArg some (Table.ext hrows)
  rw [inserts_iff, hinsert]
  constructor
  · rintro ⟨t, ht, -, h₁, h₂, h₃⟩
    cases ht
    exact DB.ext h₁ h₂ h₃
  · rintro rfl
    exact ⟨db'.events, rfl, by simp, rfl, rfl, rfl⟩

/-- **An insert may be cut anywhere.** -/
theorem inserts_append {a b : List ReplayEvent} :
    Inserts db (a ++ b) db' ↔ ∃ db₁, Inserts db a db₁ ∧ Inserts db₁ b db' := by
  constructor
  · intro h
    obtain ⟨t, ht, hes, h₁, h₂, h₃⟩ := inserts_iff.mp h
    rw [Table.insert_append, Option.bind_eq_some_iff] at ht
    obtain ⟨t₁, ht₁, ht⟩ := ht
    have hesa : ∀ ev ∈ a, ev.sessionID ∈ db.sessions.keys :=
      fun ev hev => hes ev (List.mem_append_left b hev)
    refine ⟨db.withEvents t₁ a (Table.rows_of_insert ht₁) hesa,
      inserts_iff.mpr ⟨t₁, ht₁, hesa, rfl, rfl, rfl⟩, inserts_iff.mpr ⟨t, ht, ?_, h₁, h₂, h₃⟩⟩
    exact fun ev hev => hes ev (List.mem_append_right a hev)
  · rintro ⟨db₁, ha, hb⟩
    obtain ⟨t₁, ht₁, hesa, h₁, h₂, h₃⟩ := inserts_iff.mp ha
    obtain ⟨t, ht, hesb, k₁, k₂, k₃⟩ := inserts_iff.mp hb
    refine inserts_iff.mpr ⟨t, ?_, fun ev hev => ?_, k₁.trans h₁, k₂, k₃.trans h₃⟩
    · rw [Table.insert_append, ht₁, Option.bind_some, ← h₂]
      exact ht
    · rcases List.mem_append.mp hev with hev | hev
      · exact hesa ev hev
      · exact h₁ ▸ hesb ev hev

end Inserts

/-! ## Batches -/

/-- The statements of the loop are the batches, up to a refused one. -/
theorem executed_createBatches {bs : List (List ReplayEvent)} {u : List (Σ q, InsertResp q)}
    {r : Except String Unit} (h : Performs (createBatches bs) u r) :
    executed u <+: bs ∧ (r = .ok () → executed u = bs) := by
  induction bs generalizing u with
  | nil =>
    obtain ⟨rfl, -⟩ := performs_pure.mp h
    exact ⟨List.prefix_rfl, fun _ => rfl⟩
  | cons b bs ih =>
    obtain ⟨u₁, r₁, u₂, h₁, h₂, rfl⟩ := performs_bind.mp h
    obtain rfl := performs_perform.mp h₁
    have hrefused : ∀ e : String, Performs (pure (.error e) : Prog InsertCall InsertResp _) u₂ r →
        executed ([⟨.exec b, r₁⟩] ++ u₂) <+: b :: bs ∧
          (r = .ok () → executed ([⟨.exec b, r₁⟩] ++ u₂) = b :: bs) := by
      intro e he
      obtain ⟨rfl, rfl⟩ := performs_pure.mp he
      exact ⟨List.prefix_append [b] bs, fun hr => by cases hr⟩
    cases r₁ with
    | error e => exact hrefused e h₂
    | ok r₁ =>
      cases r₁ with
      | error e => exact hrefused e h₂
      | ok _ =>
        obtain ⟨hbegins, hall⟩ := ih h₂
        exact ⟨(List.prefix_cons_inj b).mpr hbegins, fun hr => congrArg (b :: ·) (hall hr)⟩

/-- No statement has more parameters than a full batch, or than all events. -/
theorem params_le {bs : List (List ReplayEvent)} (hbs : ∀ b ∈ bs, b ≠ [] ∧ b.length ≤ batchSize)
    {b : List ReplayEvent} (hb : b ∈ bs) :
    params (.exec b) ≤ 7 * min bs.flatten.length batchSize := by
  have hle := (hbs b hb).2
  have hle' : b.length ≤ bs.flatten.length := (List.sublist_flatten_of_mem hb).length_le
  simp only [params]
  omega

section Runs

variable {P k m : ℕ} {bad : InsertCall → Prop} {db : DB}

/-- Why inserting fails: a constraint, or a call that may fail. -/
def Fails (bad : InsertCall → Prop) (m : ℕ) (db : DB) (es : List ReplayEvent) : Prop :=
  (∀ db', ¬ Inserts db es db') ∨ ∃ q, bad q ∧ params q ≤ m

/-- **The loop**, inside a transaction. -/
theorem triple_createBatches {bs : List (List ReplayEvent)}
    (hbs : ∀ b ∈ bs, params (.exec b) ≤ m) (s : DB) :
    Triple (handler effect (fun q => params q ≤ P) bad) (fun c => c = ⟨db, some s, k⟩)
      (createBatches bs) fun r c => c.committed = db ∧
        ((r = .ok () ∧ c.failures = k ∧ ∃ s', c.tx = some s' ∧ Inserts s bs.flatten s') ∨
          (∃ e, r = .error e) ∧ Fails bad m s bs.flatten) := by
  induction bs generalizing s with
  | nil =>
    rintro c c' r rfl ⟨rfl, rfl⟩
    exact ⟨rfl, Or.inl ⟨rfl, rfl, s, rfl, inserts_nil.mpr rfl⟩⟩
  | cons b bs ih =>
    rintro c c' r rfl h
    obtain ⟨c₁, r₁, hrun₁, hrest⟩ := runs_bind.mp h
    rw [List.flatten_cons]
    rcases runs_perform.mp hrun₁ with ⟨-, s₁, a, ⟨e, heffect⟩, rfl, rfl⟩ | ⟨hbad, rfl, e, rfl⟩
    · rcases heffect with ⟨u, hrun, rfl⟩ | ⟨msg, hrun, rfl, rfl⟩
      · obtain ⟨hcommitted, hloop⟩ :=
          ih (fun b' hb' => hbs b' (List.mem_cons_of_mem b hb')) s₁ _ c' r rfl hrest
        have hhead : Inserts s b s₁ := ⟨e, u, hrun⟩
        refine ⟨hcommitted, ?_⟩
        rcases hloop with ⟨hr, hfail, s', htx, hins⟩ | ⟨hr, hfails⟩
        · exact Or.inl ⟨hr, hfail, s', htx, inserts_append.mpr ⟨s₁, hhead, hins⟩⟩
        · refine Or.inr ⟨hr, hfails.imp_left fun hnone db' hins => ?_⟩
          obtain ⟨s₂, h₁, h₂⟩ := inserts_append.mp hins
          exact hnone db' (hhead.unique h₁ ▸ h₂)
      · obtain ⟨rfl, rfl⟩ := hrest
        refine ⟨rfl, Or.inr ⟨⟨msg, rfl⟩, Or.inl fun db' hins => ?_⟩⟩
        obtain ⟨s₂, h₁, -⟩ := inserts_append.mp hins
        exact not_inserts_of_error hrun h₁
    · obtain ⟨rfl, rfl⟩ := hrest
      exact ⟨rfl, Or.inr ⟨⟨e, rfl⟩, Or.inr ⟨_, hbad, hbs b List.mem_cons_self⟩⟩⟩

variable
  {createInBatches : ℕ → List ReplayEvent → Prog InsertCall InsertResp (Except String Unit)}

/-- **All or nothing**: the batches do what one statement does, or nothing for a reason. -/
theorem insertEvents_cases (hcreate : CreatesInBatches createInBatches) (db : DB)
    (events : List ReplayEvent) :
    Triple (handler effect (fun q => params q ≤ P) bad) (fun c => c = ⟨db, none, k⟩)
      (insertEvents createInBatches events) fun r c => (r = .ok () ∧ Inserts db events c.committed) ∨
        (∃ e, r = .error e) ∧ Fails bad (7 * min events.length batchSize) db events ∧
          c.committed = db := by
  obtain ⟨bs, rfl, hbs, ⟨hone, heq⟩ | heq⟩ := hcreate batchSize events (by decide)
  · rw [insertEvents, heq]
    rintro c c' r rfl h
    cases bs with
    | nil =>
      obtain ⟨rfl, rfl⟩ := h
      exact Or.inl ⟨rfl, inserts_nil.mpr rfl⟩
    | cons b bs =>
      obtain rfl : bs = [] := List.length_eq_zero_iff.mp (by simpa using hone)
      have hparams := params_le hbs List.mem_cons_self
      rw [List.flatten_singleton] at hparams ⊢
      obtain ⟨c₁, r₁, hrun₁, hrest⟩ := runs_bind.mp h
      rcases runs_perform.mp hrun₁ with ⟨-, s₁, a, ⟨e, heffect⟩, rfl, rfl⟩ | ⟨hbad, rfl, e, rfl⟩
      · rcases heffect with ⟨u, hrun, rfl⟩ | ⟨msg, hrun, rfl, rfl⟩
        · obtain ⟨rfl, rfl⟩ := hrest
          exact Or.inl ⟨rfl, e, u, hrun⟩
        · obtain ⟨rfl, rfl⟩ := hrest
          exact Or.inr ⟨⟨msg, rfl⟩, Or.inl fun _ => not_inserts_of_error hrun, rfl⟩
      · obtain ⟨rfl, rfl⟩ := hrest
        exact Or.inr ⟨⟨e, rfl⟩, Or.inr ⟨_, hbad, hparams⟩, rfl⟩
  · rw [insertEvents, heq]
    have hbody := @triple_createBatches P k _ bad db bs (fun b hb => params_le hbs hb) db
    have htx := Triple.transaction_cases
      (F := fun _ => Fails bad (7 * min bs.flatten.length batchSize) db bs.flatten)
      (fun hbad => Or.inr ⟨_, hbad, Nat.zero_le _⟩) (fun hbad => Or.inr ⟨_, hbad, Nat.zero_le _⟩)
      hbody
    intro c c' r hc hruns
    exact (htx c c' r hc hruns).imp (fun h => ⟨h.1, h.2.2⟩) id

/-- **The inserts**: none has more than a hundred rows, and they hold the events in order, up to a
refused one. -/
theorem insertEvents_inserts (hcreate : CreatesInBatches createInBatches)
    {events : List ReplayEvent} {u : List (Σ q, InsertResp q)} {r : Except String Unit}
    (h : Performs (insertEvents createInBatches events) u r) :
    (∀ b ∈ executed u, b ≠ [] ∧ b.length ≤ batchSize) ∧ (executed u).flatten <+: events ∧
      (r = .ok () → (executed u).flatten = events) := by
  obtain ⟨bs, rfl, hbs, hcases⟩ := hcreate batchSize events (by decide)
  have hloop : executed u <+: bs ∧ (r = .ok () → executed u = bs) := by
    rw [insertEvents] at h
    rcases hcases with ⟨-, heq⟩ | heq
    · exact executed_createBatches (heq ▸ h)
    · rw [heq] at h
      rcases performs_transaction h with ⟨⟨e, rfl⟩, hnone⟩ | ⟨v, r', hbody, hsame, hr⟩
      · exact ⟨hnone ▸ List.nil_prefix, fun hr => by cases hr⟩
      · obtain ⟨hbegins, hall⟩ := executed_createBatches hbody
        exact ⟨hsame ▸ hbegins, fun hok => hsame.trans (hall (hr hok))⟩
  exact ⟨fun b hb => hbs b (hloop.1.subset hb), hloop.1.flatten,
    fun hok => congrArg List.flatten (hloop.2 hok)⟩

end Runs

/-! ## Main theorem -/

/-- A healthy database answers every call. -/
def respond (P : ℕ) : (q : InsertCall) → Conn DB → Conn DB × InsertResp q
  | .begin, c => ({ c with tx := some c.committed }, .ok ())
  | .exec es, c =>
    if 7 * es.length ≤ P then
      match (Stmt.insertEvents es).run (.quiet none 0 fun _ => "") c.current with
      | .ok (s, _) => (c.update s, .ok (.ok ()))
      | .error msg => (c.update c.current, .ok (.error msg))
    else ({ c with failures := c.failures + 1 }, .error "too many SQL variables")
  | .commit, c => ({ c with committed := c.current, tx := none }, .ok ())
  | .rollback, c => ({ c with tx := none }, ())

theorem healthy_respond (P : ℕ) (q : InsertCall) (c : Conn DB) :
    healthy P q c (respond P q c).1 (respond P q c).2 := by
  cases q with
  | begin => exact Or.inl ⟨Nat.zero_le P, rfl, rfl⟩
  | commit => exact Or.inl ⟨Nat.zero_le P, rfl, rfl⟩
  | rollback => rfl
  | exec es =>
    simp only [respond]
    split_ifs with h
    · split
      next s a hrun => exact Or.inl ⟨h, s, _, ⟨_, Or.inl ⟨a, hrun, rfl⟩⟩, rfl, rfl⟩
      next msg hrun => exact Or.inl ⟨h, _, _, ⟨_, Or.inr ⟨msg, hrun, rfl, rfl⟩⟩, rfl, rfl⟩
    · exact Or.inr ⟨not_le.mp h, rfl, _, rfl⟩

/-- **The batches are one statement**, for any number of events. No insert has more than a hundred
rows, and the inserts of a successful call hold every event once, in order. If a hundred rows fit in
a statement, then on a healthy database the events are inserted exactly if no constraint is
violated, as the one statement inserts them, and else nothing changes. Whatever fails, nothing
changes. -/
theorem insertEvents_exact
    {createInBatches : ℕ → List ReplayEvent → Prog InsertCall InsertResp (Except String Unit)}
    (hcreate : CreatesInBatches createInBatches) {P : ℕ} (db : DB) (events : List ReplayEvent) :
    (∀ u r, Performs (insertEvents createInBatches events) u r →
        (∀ b ∈ executed u, b ≠ [] ∧ b.length ≤ batchSize) ∧ (executed u).flatten <+: events ∧
          (r = .ok () → (executed u).flatten = events)) ∧
      (7 * min events.length batchSize ≤ P →
        (∃ c r, Runs (healthy P) (insertEvents createInBatches events) ⟨db, none, 0⟩ c r) ∧
          ∀ c r, Runs (healthy P) (insertEvents createInBatches events) ⟨db, none, 0⟩ c r →
            (r = .ok () ∧ Inserts db events c.committed) ∨
              ((∃ e, r = .error e) ∧ (∀ db', ¬ Inserts db events db') ∧ c.committed = db)) ∧
      ∀ c r, Runs (faulty P) (insertEvents createInBatches events) ⟨db, none, 0⟩ c r →
        (r = .ok () ∧ Inserts db events c.committed) ∨ ((∃ e, r = .error e) ∧ c.committed = db) := by
  refine ⟨fun u r h => insertEvents_inserts hcreate h,
    fun hP => ⟨⟨_, _, runs_eval (healthy_respond P) _ _⟩, fun c r hruns => ?_⟩, fun c r hruns => ?_⟩
  · rcases insertEvents_cases hcreate db events _ c r rfl hruns with hok | ⟨herr, hfails, hdb⟩
    · exact Or.inl hok
    · refine Or.inr ⟨herr, ?_, hdb⟩
      rcases hfails with hnone | ⟨q, hbad, hq⟩
      · exact hnone
      · exact absurd (hq.trans hP) (not_le.mpr hbad)
  · rcases insertEvents_cases hcreate db events _ c r rfl hruns with hok | ⟨herr, -, hdb⟩
    · exact Or.inl hok
    · exact Or.inr ⟨herr, hdb⟩

/-- Full batches and a rest, in a transaction if there are several. -/
def createPages (n : ℕ) (events : List ReplayEvent) :
    Prog InsertCall InsertResp (Except String Unit) :=
  let bs := (List.range (pageCount events.length n)).map (page events n)
  if events.length ≤ n then createBatches bs else transaction (createBatches bs)

theorem createsInBatches_createPages : CreatesInBatches createPages := by
  intro n events hn
  refine ⟨_, flatten_pages events hn, fun b hb => ?_, ?_⟩
  · obtain ⟨i, hi, rfl⟩ := List.mem_map.mp hb
    have hlt : i * n < events.length := (lt_pageCount_iff hn).mp (List.mem_range.mp hi)
    refine ⟨List.length_pos_iff.mp ?_, length_page_le events n i⟩
    rw [page, List.length_take, List.length_drop]
    omega
  · unfold createPages
    split_ifs with hle
    · refine Or.inl ⟨not_lt.mp fun hmore => ?_, rfl⟩
      rw [List.length_map, List.length_range, lt_pageCount_iff hn] at hmore
      omega
    · exact Or.inr rfl

/-- A database with one session, without events. -/
def oneSession : DB where
  sessions := ⟨[Service.sessionOf (plainBatch sampleID []) 0], List.nodup_singleton _⟩
  events := .empty
  failed := .empty
  token_unique := by simp
  session_exists := by simp

/-- Events of that session. -/
def mouseMoves (n : ℕ) : List ReplayEvent :=
  (List.range n).map fun i =>
    ⟨String.ofList (List.replicate i 'e'), sampleID, i, 3, .obj [], i, 0⟩

theorem inserts_mouseMoves (n : ℕ) : ∃ db', Inserts oneSession (mouseMoves n) db' := by
  have hids : ((mouseMoves n).map ReplayEvent.id).Nodup := by
    rw [mouseMoves, List.map_map]
    refine List.nodup_range.map fun i j h => ?_
    have hlength := congrArg (fun t : String => t.toList.length) h
    simpa using hlength
  have hsession : ∀ ev ∈ mouseMoves n, ev.sessionID ∈ oneSession.sessions.keys := by
    intro ev hev
    obtain ⟨i, -, rfl⟩ := List.mem_map.mp hev
    exact List.mem_cons_self
  have ht : oneSession.events.insert (mouseMoves n) = _ := Table.insert_eq_some hids
  exact ⟨oneSession.withEvents _ (mouseMoves n) (Table.rows_of_insert ht) hsession,
    inserts_iff.mpr ⟨_, ht, hsession, rfl, rfl, rfl⟩⟩

/-- A hundred and one events go into two inserts. -/
theorem insertEvents_exact_two : ∃ c,
    Runs (healthy 700) (insertEvents createPages (mouseMoves 101)) ⟨oneSession, none, 0⟩ c (.ok ()) ∧
      Inserts oneSession (mouseMoves 101) c.committed ∧
      ∀ u, Performs (insertEvents createPages (mouseMoves 101)) u (.ok ()) →
        (executed u).flatten = mouseMoves 101 ∧ 2 ≤ (executed u).length := by
  have hlength : (mouseMoves 101).length = 101 := by simp [mouseMoves]
  obtain ⟨hinserts, hhealthy, -⟩ := insertEvents_exact createsInBatches_createPages (P := 700)
    oneSession (mouseMoves 101)
  obtain ⟨⟨c, r, hrun⟩, hall⟩ := hhealthy (by rw [hlength]; decide)
  obtain ⟨db', hdb'⟩ := inserts_mouseMoves 101
  rcases hall c r hrun with ⟨rfl, hins⟩ | ⟨-, hnone, -⟩
  · refine ⟨c, hrun, hins, fun u hu => ?_⟩
    obtain ⟨hsizes, -, hflatten⟩ := hinserts u _ hu
    have hflat := hflatten rfl
    refine ⟨hflat, not_lt.mp fun hone => ?_⟩
    -- one insert has a hundred rows at most
    have hrows := congrArg List.length hflat
    rw [hlength] at hrows
    cases hu' : executed u with
    | nil => simp [hu'] at hrows
    | cons b bs =>
      rw [hu', List.length_cons] at hone
      obtain rfl : bs = [] := List.length_eq_zero_iff.mp (by omega)
      rw [hu', List.flatten_singleton] at hrows
      have hb := (hsizes b (hu' ▸ List.mem_cons_self)).2
      rw [hrows] at hb
      exact absurd hb (by decide)
  · exact absurd hdb' (hnone db')

end Batches

end BatRewind
