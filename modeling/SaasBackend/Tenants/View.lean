import SaasBackend.Statements

open Calendar ReadCommitted ReadCommitted.Service

namespace SaasBackend

open Service

-- The subscription with the given id is one of the user.
def Database.subscribes (d : Database) (user id : Uuid) : Bool :=
  d.subscriptions.rows.any fun s => s.id = id ∧ s.userId = user

-- The rows that belong to a user. A quota belongs to the user of its subscription.
def Row.isOf (d : Database) (user : Uuid) : Row → Bool
  | .user u         => u.id = user
  | .subscription s => s.userId = user
  | .usageQuota q   => d.subscribes user q.subscriptionId
  | .session s      => s.userId = user
  | .apiKey k       => k.userId = user
  | .requestLog l   => l.userId = some user
  | .dailyUsage u   => u.userId = user
  | _               => false

def Row.isPlan : Row → Bool
  | .plan _ => true
  | _       => false

namespace Database

-- The plans, and what belongs to a user.
def tenant (d : Database) (user : Uuid) : Database where
  users              := d.users.filter fun u => (Row.user u).isOf d user
  plans              := d.plans
  subscriptions      := d.subscriptions.filter fun s => (Row.subscription s).isOf d user
  quotas             := d.quotas.filter fun q => (Row.usageQuota q).isOf d user
  verificationTokens := .empty
  resetTokens        := .empty
  sessions           := d.sessions.filter fun s => (Row.session s).isOf d user
  apiKeys            := d.apiKeys.filter fun k => (Row.apiKey k).isOf d user
  requestLogs        := d.requestLogs.filter fun l => (Row.requestLog l).isOf d user
  dailyUsage         := d.dailyUsage.filter fun u => (Row.dailyUsage u).isOf d user
  outstandingTokens  := .empty
  blacklistedTokens  := .empty

-- All the rest.
def others (d : Database) (user : Uuid) : Database :=
  { d with
    users         := d.users.filter fun u => !(Row.user u).isOf d user
    subscriptions := d.subscriptions.filter fun s => !(Row.subscription s).isOf d user
    quotas        := d.quotas.filter fun q => !(Row.usageQuota q).isOf d user
    sessions      := d.sessions.filter fun s => !(Row.session s).isOf d user
    apiKeys       := d.apiKeys.filter fun k => !(Row.apiKey k).isOf d user
    requestLogs   := d.requestLogs.filter fun l => !(Row.requestLog l).isOf d user
    dailyUsage    := d.dailyUsage.filter fun u => !(Row.dailyUsage u).isOf d user }

variable {d d' : Database} {user : Uuid} {r n : Row}

theorem mem_rows_tenant : r ∈ (d.tenant user).rows ↔ r ∈ d.rows ∧ (r.isOf d user ∨ r.isPlan) := by
  cases r <;> simp [tenant, Table.mem_filter, Row.isPlan, Row.isOf]

theorem mem_rows_others : r ∈ (d.others user).rows ↔ r ∈ d.rows ∧ ¬r.isOf d user := by
  cases r <;> simp [others, Table.mem_filter, Row.isOf]

theorem mem_rows_split (user : Uuid) : r ∈ d.rows ↔ r ∈ (d.tenant user).rows ∨ r ∈ (d.others user).rows := by
  rw [mem_rows_tenant, mem_rows_others]
  by_cases h : r.isOf d user
  case pos => simp [h]
  case neg => simpa [h] using And.left

-- Neither a plan nor a token is written, and no quota becomes one of the user by a new subscription.
structure Owns (d : Database) (user : Uuid) (n : Row) : Prop where
  new    : n.isOf d user
  old    : ∀ r ∈ d.rows, r.key = n.key → r.isOf d user
  quotas : ∀ s, n = .subscription s → ∀ q ∈ d.quotas, q.subscriptionId = s.id → d.subscribes user s.id

theorem Owns.filter {R : Type} [Entity R Key] {table : Database → Table R} {row : R → Row}
    [ht : IsTable table row] {n : R} (h : d.Owns user (row n)) :
    ((table d).put n).filter (fun r => (row r).isOf d user) =
      ((table d).filter fun r => (row r).isOf d user).put n ∧
    ((table d).put n).filter (fun r => !(row r).isOf d user) = (table d).filter fun r => !(row r).isOf d user := by
  have ho : ∀ r ∈ table d, Entity.key r = Entity.key n → (row r).isOf d user :=
    fun r hr hk => h.old _ (ht.mem_rows.mpr hr) <| (ht.key_row r).trans <| hk.trans (ht.key_row n).symm
  constructor
  case left   => exact Table.filter_put h.new ho
  case right  => exact Table.filter_put_of_not (by simp [h.new]) fun r hr hk => by simp [ho r hr hk]

theorem subscribes_put {s : Subscription} (h : d.Owns user (.subscription s)) {q : UsageQuota} (hq : q ∈ d.quotas) :
    (d.put <| .subscription s).subscribes user q.subscriptionId = d.subscribes user q.subscriptionId := by
  have hs : s.userId = user := by simpa [Row.isOf] using h.new
  rw [Bool.eq_iff_iff]
  by_cases he : q.subscriptionId = s.id
  case pos =>
    have hd := h.quotas s rfl q hq he
    rw [he]
    refine iff_of_true ?_ hd
    exact List.any_eq_true.mpr ⟨s, Table.mem_put_self .., by simp [hs]⟩
  case neg =>
    simp only [subscribes, List.any_eq_true, decide_eq_true_eq]
    constructor
    case mp   =>
      rintro ⟨r, hr, hi, hu⟩
      rcases Table.mem_put.mp hr with rfl | ⟨hr, _⟩
      · exact (he hi.symm).elim
      · exact ⟨r, hr, hi, hu⟩
    case mpr  =>
      rintro ⟨r, hr, hi, hu⟩
      exact ⟨r, Table.mem_put_of_ne hr fun hk => he <| hi.symm.trans <| Key.subscription.inj hk, hi, hu⟩

theorem tenant_put (h : d.Owns user n) :
    (d.put n).tenant user = (d.tenant user).put n ∧ (d.put n).others user = d.others user := by
  cases n
  case user =>
    obtain ⟨ht, ho⟩ := h.filter
    exact ⟨congrArg (fun t => { d.tenant user with users := t }) ht,
      congrArg (fun t => { d.others user with users := t }) ho⟩
  case usageQuota =>
    obtain ⟨ht, ho⟩ := h.filter
    exact ⟨congrArg (fun t => { d.tenant user with quotas := t }) ht,
      congrArg (fun t => { d.others user with quotas := t }) ho⟩
  case session =>
    obtain ⟨ht, ho⟩ := h.filter
    exact ⟨congrArg (fun t => { d.tenant user with sessions := t }) ht,
      congrArg (fun t => { d.others user with sessions := t }) ho⟩
  case apiKey =>
    obtain ⟨ht, ho⟩ := h.filter
    exact ⟨congrArg (fun t => { d.tenant user with apiKeys := t }) ht,
      congrArg (fun t => { d.others user with apiKeys := t }) ho⟩
  case requestLog =>
    obtain ⟨ht, ho⟩ := h.filter
    exact ⟨congrArg (fun t => { d.tenant user with requestLogs := t }) ht,
      congrArg (fun t => { d.others user with requestLogs := t }) ho⟩
  case dailyUsage =>
    obtain ⟨ht, ho⟩ := h.filter
    exact ⟨congrArg (fun t => { d.tenant user with dailyUsage := t }) ht,
      congrArg (fun t => { d.others user with dailyUsage := t }) ho⟩
  case subscription s =>
    obtain ⟨ht, ho⟩ := h.filter
    have hq : (d.quotas.filter fun q => (Row.usageQuota q).isOf (d.put <| .subscription s) user) =
        d.quotas.filter fun q => (Row.usageQuota q).isOf d user :=
      Table.filter_congr fun q hq => subscribes_put h hq
    have hq' : (d.quotas.filter fun q => !(Row.usageQuota q).isOf (d.put <| .subscription s) user) =
        d.quotas.filter fun q => !(Row.usageQuota q).isOf d user :=
      Table.filter_congr fun q hq => congrArg _ <| subscribes_put h hq
    exact ⟨congrArg₂ (fun t q => { d.tenant user with subscriptions := t, quotas := q }) ht hq,
      congrArg₂ (fun t q => { d.others user with subscriptions := t, quotas := q }) ho hq'⟩
  all_goals cases h.new

-- A row of the user remains one.
theorem Owns.of_mem {o : Row} (ho : o ∈ d.rows) (hk : o.key = n.key) (h : o.isOf d user) (hn : n.isOf d user) :
    d.Owns user n := by
  constructor
  case new    => exact hn
  case old    =>
    intro r hr hk'
    rwa [eq_of_key hr ho <| hk'.trans hk.symm]
  case quotas =>
    rintro s rfl q - -
    have ht : IsTable Database.subscriptions .subscription := inferInstance
    obtain ⟨s', rfl⟩ := ht.of_key o s hk
    refine List.any_eq_true.mpr ⟨s', subscription_mem_rows.mp ho, ?_⟩
    simpa [Row.isOf] using ⟨Key.subscription.inj hk, of_decide_eq_true h⟩

theorem lookup_tenant {R : Type} [Entity R Key] {table : Database → Table R} {row : R → Row}
    [ht : IsTable table row] {k : Key} (h : ∀ r ∈ table d, Entity.key r = k → (row r).isOf d user) :
    (table <| d.tenant user).lookup k = (table d).lookup k := by
  ext r
  rw [Table.lookup_eq_some, Table.lookup_eq_some, ←ht.mem_rows, ←ht.mem_rows, mem_rows_tenant]
  constructor
  case mp   =>
    rintro ⟨⟨hr, _⟩, hk⟩
    exact ⟨hr, hk⟩
  case mpr  =>
    rintro ⟨hr, hk⟩
    exact ⟨⟨hr, .inl <| h r (ht.mem_rows.mp hr) hk⟩, hk⟩

end Database

-- The call does not depend on what does not belong to the user, and leaves it as it is.
structure Confined {α : Type} (user : Uuid) (s : Service α) (d : Database) : Prop where
  result : (s.run <| d.tenant user).fst = (s.run d).fst
  tenant : (s.run <| d.tenant user).snd = (s.run d).snd.tenant user
  others : (s.run d).snd.others user = d.others user

namespace Confined

variable {α β : Type} {user : Uuid} {d d' : Database}

theorem pure (a : α) (d : Database) : Confined user (pure a : Service α) d :=
  ⟨rfl, rfl, rfl⟩

theorem raise (e : Exn) (d : Database) : Confined user (raise e : Service α) d :=
  ⟨rfl, rfl, rfl⟩

theorem ofExcept (r : Except Exn α) (d : Database) : Confined user (ofExcept r) d := by
  cases r
  case ok a     => exact pure a d
  case error e  => exact raise e d

theorem select {q : Database → α} (h : q (d.tenant user) = q d) : Confined user (select q) d :=
  ⟨congrArg Except.ok h, rfl, rfl⟩

theorem run_eq {s : Service α} {r : Except Exn α} (h : Confined user s d) (hs : s.run d = (r, d')) :
    s.run (d.tenant user) = (r, d'.tenant user) ∧ d'.others user = d.others user := by
  obtain ⟨hr, ht, ho⟩ := h
  rw [hs] at hr ht ho
  exact ⟨Prod.ext hr ht, ho⟩

theorem of_run_eq {s : Service α} {r : Except Exn α} (hs : s.run d = (r, d'))
    (hs' : s.run (d.tenant user) = (r, d'.tenant user)) (ho : d'.others user = d.others user) :
    Confined user s d := by
  constructor <;> rw [hs] <;> first | rw [hs'] | exact ho

theorem bind {s : Service β} {f : β → Service α} (h : Confined user s d)
    (hf : ∀ b d', s.run d = (.ok b, d') → d'.others user = d.others user → Confined user (f b) d') :
    Confined user (s >>= f) d := by
  cases hs : s.run d
  case mk r d' =>
    obtain ⟨hs', ho⟩ := h.run_eq hs
    cases r
    case error e  => exact of_run_eq (run_bind_of_error f hs) (run_bind_of_error f hs') ho
    case ok b     =>
      obtain ⟨hr, ht, ho'⟩ := hf b d' hs ho
      have h₁ : (s >>= f).run d = (f b).run d' := run_bind_of_ok hs
      have h₂ : (s >>= f).run (d.tenant user) = (f b).run (d'.tenant user) := run_bind_of_ok hs'
      constructor
      case result => rw [h₁, h₂, hr]
      case tenant => rw [h₁, h₂, ht]
      case others => rw [h₁, ho', ho]

theorem atomic {s : Service α} (h : Confined user s d) : Confined user s.atomic d := by
  cases hs : s.run d
  case mk r d' =>
    obtain ⟨hs', ho⟩ := h.run_eq hs
    cases r
    case error e  =>
      have h₁ : s.atomic.run d = (.error e, d) := by rw [run_atomic, hs]
      have h₂ : s.atomic.run (d.tenant user) = (.error e, d.tenant user) := by rw [run_atomic, hs']
      exact of_run_eq h₁ h₂ rfl
    case ok a     => exact of_run_eq (run_atomic_eq_ok.mpr hs) (run_atomic_eq_ok.mpr hs') ho

theorem create {n : Row} (h : d.Owns user n)
    (hn : ∀ r ∈ (d.others user).rows, r.key ≠ n.key ∧ ∀ k ∈ n.entries, k ∉ r.entries) :
    Confined user (create n) d := by
  obtain ⟨ht, ho⟩ := Database.tenant_put h
  have hc : Conflict (d.tenant user).rows (⟨none, n⟩ : Write) ↔ Conflict d.rows (⟨none, n⟩ : Write) := by
    simp only [Conflict, Database.mem_rows_split user (d := d), Put.added_insert]
    constructor
    case mp   =>
      rintro (⟨hi, r, hr, hk⟩ | ⟨r, hr, hk, he⟩)
      · exact .inl ⟨hi, r, .inl hr, hk⟩
      · exact .inr ⟨r, .inl hr, hk, he⟩
    case mpr  =>
      rintro (⟨hi, r, hr | hr, hk⟩ | ⟨r, hr | hr, hk, k, he, hr'⟩)
      · exact .inl ⟨hi, r, hr, hk⟩
      · exact ((hn r hr).left hk).elim
      · exact .inr ⟨r, hr, hk, k, he, hr'⟩
      · exact ((hn r hr).right k he hr').elim
  have hv : Store.violation (d.tenant user) (⟨none, n⟩ : Write) = Store.violation d (⟨none, n⟩ : Write) :=
    congrArg (fun x => _ <|> x) <| if_congr hc rfl rfl
  cases hd : Store.violation d (⟨none, n⟩ : Write)
  case none   =>
    have h₁ : (Service.create n).run d = (.ok (), d.put n) := by rw [run_create, hd]
    have h₂ : (Service.create n).run (d.tenant user) = (.ok (), (d.put n).tenant user) := by
      rw [run_create, hv, hd, ht]
    exact of_run_eq h₁ h₂ ho
  case some e =>
    have h₁ : (Service.create n).run d = (.error e, d) := by rw [run_create, hd]
    have h₂ : (Service.create n).run (d.tenant user) = (.error e, d.tenant user) := by rw [run_create, hv, hd]
    exact of_run_eq h₁ h₂ rfl

-- An assignment to a row of the user, if there is such a row.
theorem stmt {w : Option Write} {ws : Database → Option Write} {q : Database → Except Exn α}
    (hq : q (d.tenant user) = q d) (hw : ws d = w) (hw' : ws (d.tenant user) = w)
    (h : ∀ p ∈ w, d.Owns user p.new ∧ p.added = [] ∧ p.old.isSome) :
    Confined user (stmt (fun d => (ws d).toList) q) d := by
  let s := Service.stmt (fun d => (ws d).toList) q
  cases w
  case none   =>
    have h₁ : s.run d = (q d, d) := by
      rw [run_stmt, hw]
      rfl
    have h₂ : s.run (d.tenant user) = (q d, d.tenant user) := by
      rw [run_stmt, hw', hq]
      rfl
    exact of_run_eq h₁ h₂ rfl
  case some p =>
    obtain ⟨ho, ha, hs⟩ := h p rfl
    obtain ⟨ht, ho⟩ := Database.tenant_put ho
    have hn : ∀ d : Database, ¬Conflict d.rows p := by
      intro d
      simp [Conflict, ha, Option.isSome_iff_ne_none.mp hs]
    have hv : ∀ d : Database, Store.violation d p = Relational.refuses Database p.new := by
      intro d
      change (_ <|> if Conflict d.rows p then _ else _) = _
      rw [if_neg (hn d)]
      cases Relational.refuses Database p.new <;> rfl
    cases hr : Relational.refuses Database p.new
    case none   =>
      have h₁ : s.run d = (q d, d.put p.new) := by
        rw [run_stmt, hw, Option.toList_some, Store.check_singleton, hv, hr]
        rfl
      have h₂ : s.run (d.tenant user) = (q d, (d.put p.new).tenant user) := by
        rw [run_stmt, hw', Option.toList_some, Store.check_singleton, hv, hr, hq, ht]
        rfl
      exact of_run_eq h₁ h₂ ho
    case some e =>
      have h₁ : s.run d = (.error e, d) := by
        rw [run_stmt, hw, Option.toList_some, Store.check_singleton, hv, hr]
      have h₂ : s.run (d.tenant user) = (.error e, d.tenant user) := by
        rw [run_stmt, hw', Option.toList_some, Store.check_singleton, hv, hr]
      exact of_run_eq h₁ h₂ rfl

section Tables

variable {R : Type} [Entity R Key] {table : Database → Table R} {row : R → Row} [ht : IsTable table row]

-- A new row of the user, which is not in conflict with rows of others.
theorem create_row {n : R} (hi : (row n).isOf d user)
    (hk : ∀ r ∈ table (d.others user), Entity.key r ≠ Entity.key n)
    (he : ∀ r ∈ table (d.others user), ∀ k ∈ Entity.entries n, k ∉ Entity.entries r)
    (hq : ∀ s, row n = .subscription s → ∀ q ∈ (d.others user).quotas, q.subscriptionId ≠ s.id) :
    Confined user (Service.create <| row n) d := by
  have hn : ∀ r ∈ (d.others user).rows, r.key ≠ (row n).key ∧ ∀ k ∈ (row n).entries, k ∉ r.entries := by
    intro r hr
    constructor
    case left   =>
      intro h
      have h : r.key = Entity.key n := h.trans <| ht.key_row n
      obtain ⟨r, rfl⟩ := ht.of_key r n h
      exact hk r (ht.mem_rows.mp hr) <| (ht.key_row r).symm.trans h
    case right  =>
      intro k h₁ h₂
      have h₁ : k ∈ Entity.entries n := (congrArg (k ∈ ·) <| ht.entries_row n).mp h₁
      obtain ⟨r, rfl⟩ := ht.of_entry r n k h₂ h₁
      exact he r (ht.mem_rows.mp hr) k h₁ <| (congrArg (k ∈ ·) <| ht.entries_row r).mp h₂
  refine create ⟨hi, fun r hr h => ?_, fun s hs q hm h => ?_⟩ hn
  · by_contra ho
    exact (hn r <| Database.mem_rows_others.mpr ⟨hr, ho⟩).left h
  · by_contra ho
    have hm : Row.usageQuota q ∈ (d.others user).rows :=
      Database.mem_rows_others.mpr ⟨Database.usageQuota_mem_rows.mpr hm, fun hi => ho <| h ▸ hi⟩
    exact hq s hs q (Database.usageQuota_mem_rows.mp hm) h

variable {k : Key} {g : R → R}

theorem assigns (h : ∀ r ∈ table d, Entity.key r = k → (row r).isOf d user)
    (hg : ∀ r, Entity.key (g r) = Entity.key r) (hi : ∀ r, (row r).isOf d user → (row <| g r).isOf d user)
    (he : ∀ r, Entity.entries (g r) ⊆ Entity.entries r) :
    assign table row k g (d.tenant user) = assign table row k g d ∧
    ∀ p ∈ assign table row k g d, d.Owns user p.new ∧ p.added = [] ∧ p.old.isSome := by
  constructor
  case left   => rw [assign, Database.lookup_tenant h, assign]
  case right  =>
    intro p hp
    obtain ⟨r, hr, hk, rfl⟩ := assign_eq_some.mp hp
    have ho := h r hr hk
    have hk' : (row r).key = (row <| g r).key := (ht.key_row r).trans <| (hg r).symm.trans (ht.key_row _).symm
    refine ⟨.of_mem (ht.mem_rows.mpr hr) hk' ho <| hi r ho, Put.added_replace ?_, rfl⟩
    rw [show Entity.entries (row <| g r) = _ from ht.entries_row _, show Entity.entries (row r) = _ from ht.entries_row _]
    exact he r

theorem save (h : ∀ r ∈ table d, Entity.key r = k → (row r).isOf d user)
    (hg : ∀ r, Entity.key (g r) = Entity.key r) (hi : ∀ r, (row r).isOf d user → (row <| g r).isOf d user)
    (he : ∀ r, Entity.entries (g r) ⊆ Entity.entries r) : Confined user (save table row k g) d := by
  obtain ⟨ha, hp⟩ := assigns h hg hi he
  refine stmt ?_ rfl ha hp
  rw [Database.lookup_tenant h]

theorem update (h : ∀ r ∈ table d, Entity.key r = k → (row r).isOf d user)
    (hg : ∀ r, Entity.key (g r) = Entity.key r) (hi : ∀ r, (row r).isOf d user → (row <| g r).isOf d user)
    (he : ∀ r, Entity.entries (g r) ⊆ Entity.entries r) : Confined user (update table row k g) d := by
  obtain ⟨ha, hp⟩ := assigns h hg hi he
  exact stmt (q := fun _ => Except.ok ()) rfl rfl ha hp

theorem selectForUpdate {q : Database → Option R} (hq : q (d.tenant user) = q d)
    (h : ∀ r, q d = some r → r ∈ table d ∧ (row r).isOf d user) : Confined user (selectForUpdate row q) d := by
  refine stmt (congrArg _ hq) rfl (congrArg _ hq) fun p hp => ?_
  obtain ⟨r, hr, rfl⟩ := Option.map_eq_some_iff.mp hp
  obtain ⟨hr, hi⟩ := h r hr
  exact ⟨.of_mem (ht.mem_rows.mpr hr) rfl hi hi, Put.added_replace (List.Subset.refl _), rfl⟩

end Tables
end Confined
end SaasBackend
