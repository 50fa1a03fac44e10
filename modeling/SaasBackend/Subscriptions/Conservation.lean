import SaasBackend.Subscriptions.Baseline
import SaasBackend.Subscriptions.Usage

open Calendar ReadCommitted ReadCommitted.Session ReadCommitted.Service
open scoped Finset

namespace SaasBackend

open Service

-- The requests that a quota has counted for the user.
def UsageQuota.usedBy (d : Database) (user : Uuid) (q : UsageQuota) : Nat :=
  if d.subscriptions.rows.any fun s => s.id = q.subscriptionId ∧ s.userId = user then
    q.requestsUsed
  else
    0

-- The requests that were counted for the user in all periods of all subscriptions.
def requestsUsed (d : Database) (user : Uuid) : Nat :=
  (d.quotas.rows.map (·.usedBy d user)).sum

-- The call counts a request of the user when it returns.
def Call.counts (user : Uuid) : Call → Bool
  | recordRequest u _ => u = user
  | _                 => false

-- The writes of this app, and those by which plans are edited.
inductive Amends (N : Write → Prop) : Write → Prop
  | bills {w : Write} (h : N w) : Amends N w
  | edits (p p' : Plan) : Amends N ⟨some <| .plan p, .plan p'⟩

theorem Amends.mono {N N' : Write → Prop} {w : Write} (hn : ∀ w, N w → N' w) (h : Amends N w) :
    Amends N' w := by
  cases h
  case bills h  => exact .bills <| hn w h
  case edits    => exact .edits ..

-- No subscription changes its owner, and no quota its subscription.
structure KeepsOwners (d d' : Database) : Prop where
  subscriptions : ∀ s ∈ d.subscriptions, ∃ s' ∈ d'.subscriptions, s'.id = s.id ∧ s'.userId = s.userId
  quotas        : ∀ q ∈ d.quotas, ∃ q' ∈ d'.quotas, q'.id = q.id ∧ q'.subscriptionId = q.subscriptionId

namespace KeepsOwners

instance : Std.Refl KeepsOwners where
  refl _ := ⟨fun s h => ⟨s, h, rfl, rfl⟩, fun q h => ⟨q, h, rfl, rfl⟩⟩

instance : IsTrans Database KeepsOwners where
  trans _ _ _ h₁ h₂ := {
    subscriptions := fun s h =>
      have ⟨_, h, hi, hu⟩ := h₁.subscriptions s h
      have ⟨s', h, hi', hu'⟩ := h₂.subscriptions _ h
      ⟨s', h, hi'.trans hi, hu'.trans hu⟩
    quotas        := fun q h =>
      have ⟨_, h, hi, hs⟩ := h₁.quotas q h
      have ⟨q', h, hi', hs'⟩ := h₂.quotas _ h
      ⟨q', h, hi'.trans hi, hs'.trans hs⟩
  }

theorem of_amends {d : Database} {w : Write} (hw : Amends Bills w) (ha : Accepts d w) :
    KeepsOwners d (d.put w.new) := by
  cases hw
  case edits => exact ⟨fun s h => ⟨s, h, rfl, rfl⟩, fun q h => ⟨q, h, rfl, rfl⟩⟩
  case bills hw =>
    have h := Accumulates.of_bills hw ha
    refine ⟨fun s hs => ?_, fun q hq => ?_⟩
    · have ⟨s', hs', hi, hu, _⟩ := h.subscriptions s hs
      exact ⟨s', hs', hi, hu⟩
    · have ⟨q', hq', hi, hs, _⟩ := h.quotas q hq
      exact ⟨q', hq', hi, hs⟩

variable {d d' : Database} {id user : Uuid} {q : UsageQuota}

theorem owned (h : KeepsOwners d d') (ho : Owned d id user) : Owned d' id user :=
  have ⟨s, hs, hi, hu⟩ := ho
  have ⟨s', hs', hi', hu'⟩ := h.subscriptions s hs
  ⟨s', hs', hi'.trans hi, hu'.trans hu⟩

-- Who the owner of a subscription is does not change once there is one.
theorem owned_iff (h : KeepsOwners d d') {s : Subscription} (hs : s ∈ d.subscriptions) (hi : s.id = id) :
    Owned d' id user ↔ Owned d id user := by
  refine ⟨fun ho => ⟨s, hs, hi, ?_⟩, h.owned⟩
  have ⟨s', hs', hi', hu'⟩ := h.subscriptions s hs
  exact hu'.symm.trans <| ho.userId hs' (hi'.trans hi)

end KeepsOwners

section Used

variable {d d' : Database} {user owner : Uuid} {q : UsageQuota}

theorem usedBy_of_owned (h : Owned d q.subscriptionId user) : q.usedBy d user = q.requestsUsed :=
  have ⟨s, hs, hi, hu⟩ := h
  if_pos <| List.any_eq_true.mpr ⟨s, hs, by simp [hi, hu]⟩

theorem usedBy_of_not_owned (h : ¬Owned d q.subscriptionId user) : q.usedBy d user = 0 := by
  refine if_neg fun ha => h ?_
  have ⟨s, hs, h⟩ := List.any_eq_true.mp ha
  have ⟨hi, hu⟩ := of_decide_eq_true h
  exact ⟨s, hs, hi, hu⟩

theorem usedBy_of_unused (h : q.requestsUsed = 0) : q.usedBy d user = 0 := by
  rw [UsageQuota.usedBy, h, ite_self]

theorem usedBy_congr (h : Owned d' q.subscriptionId user ↔ Owned d q.subscriptionId user) :
    q.usedBy d' user = q.usedBy d user := by
  by_cases ho : Owned d q.subscriptionId user
  case pos => rw [usedBy_of_owned ho, usedBy_of_owned <| h.mpr ho]
  case neg => rw [usedBy_of_not_owned ho, usedBy_of_not_owned <| mt h.mp ho]

-- Requests are only counted for subscriptions that exist.
def Attributed (d : Database) : Prop :=
  ∀ q ∈ d.quotas, q.requestsUsed ≠ 0 → ∃ s ∈ d.subscriptions, s.id = q.subscriptionId

-- Nothing is counted, and nothing that was counted is lost.
def KeepsUsage (user : Uuid) (d d' : Database) : Prop :=
  Attributed d → Attributed d' ∧ requestsUsed d' user = requestsUsed d user

instance : Std.Refl (KeepsUsage user) where
  refl _ h := ⟨h, rfl⟩

instance : IsTrans Database (KeepsUsage user) where
  trans _ _ _ h₁ h₂ h :=
    have ⟨h, hu⟩ := h₁ h
    have ⟨h, hu'⟩ := h₂ h
    ⟨h, hu'.trans hu⟩

theorem Attributed.keepsOwners (h : Attributed d) (ho : KeepsOwners d d') (hq : q ∈ d.quotas)
    (hu : q.requestsUsed ≠ 0) : ∃ s ∈ d'.subscriptions, s.id = q.subscriptionId :=
  have ⟨s, hs, hi⟩ := h q hq hu
  have ⟨s', hs', hi', _⟩ := ho.subscriptions s hs
  ⟨s', hs', hi'.trans hi⟩

theorem KeepsUsage.of_quotas (ho : KeepsOwners d d') (hq : d'.quotas = d.quotas) :
    KeepsUsage user d d' := by
  intro h
  refine ⟨fun q hm => h.keepsOwners ho (hq ▸ hm), ?_⟩
  rw [requestsUsed, requestsUsed, hq]
  refine congrArg List.sum <| List.map_congr_left fun q hm => ?_
  by_cases hu : q.requestsUsed = 0
  case pos => rw [usedBy_of_unused hu, usedBy_of_unused hu]
  case neg =>
    have ⟨s, hs, hi⟩ := h q hm hu
    exact usedBy_congr <| ho.owned_iff hs hi

theorem KeepsUsage.of_amends {w : Write} (hw : Amends Arranges w) (ha : Accepts d w) :
    KeepsUsage user d (d.put w.new) := by
  have ho := KeepsOwners.of_amends (hw.mono fun _ => Arranges.bills) ha
  cases hw
  case edits    => exact of_quotas ho rfl
  case bills hw =>
    cases hw
    case opens | ends => exact of_quotas ho rfl
    case rotates q hq =>
      intro h
      constructor
      case left =>
        intro q' hm hu
        cases Table.mem_put.mp hm
        case inl he => exact absurd hq <| he ▸ hu
        case inr hm => exact h q' hm.left hu
      case right =>
        have hr : (d.quotas.put q).rows = q :: d.quotas.rows := Table.rows_put_of_not_mem <| accepts_new ha
        change ((d.quotas.put q).rows.map (·.usedBy d user)).sum = _
        rw [hr, List.map_cons, List.sum_cons, usedBy_of_unused hq, Nat.zero_add]
        rfl

-- A request is counted for the owner of the subscription.
theorem requestsUsed_count (hq : q ∈ d.quotas) (ho : Owned d q.subscriptionId owner) (user : Uuid) :
    requestsUsed (d.put <| .usageQuota { q with requestsUsed := q.requestsUsed + 1 }) user =
      requestsUsed d user + if owner = user then 1 else 0 := by
  let q' := { q with requestsUsed := q.requestsUsed + 1 }
  have hs := Table.sum_put_old (n := q') (·.usedBy d user) hq rfl
  have hu : q'.usedBy d user = q.usedBy d user + if owner = user then 1 else 0 := by
    split
    case isTrue he    =>
      have ho : Owned d q.subscriptionId user := he ▸ ho
      rw [usedBy_of_owned ho, usedBy_of_owned (q := q') ho]
    case isFalse he   =>
      have hn : ¬Owned d q.subscriptionId user := by
        intro ⟨s, hs, hi, hu⟩
        exact he <| (ho.userId hs hi).symm.trans hu
      rw [usedBy_of_not_owned hn, usedBy_of_not_owned (q := q') hn]
  have hs : requestsUsed (d.put <| .usageQuota q') user + q.usedBy d user =
    requestsUsed d user + q'.usedBy d user := hs
  have h : requestsUsed (d.put <| .usageQuota q') user = requestsUsed d user + if owner = user then 1 else 0 := by
    omega
  exact h

theorem Attributed.count (h : Attributed d) (ho : Owned d q.subscriptionId owner) :
    Attributed (d.put <| .usageQuota { q with requestsUsed := q.requestsUsed + 1 }) := by
  intro q' hm hu
  cases Table.mem_put.mp hm
  case inl he =>
    have ⟨s, hs, hi, _⟩ := ho
    exact ⟨s, hs, hi.trans <| he ▸ rfl⟩
  case inr hm => exact h q' hm.left hu

end Used

section Keeps

variable {d₀ d : Database} {user : Uuid}

-- There is a current version of the quota, and it belongs to a subscription of the user.
def Found (user : Uuid) (x : LoadedSubscription × UsageQuota) (fs : List (List Write)) (d : Database) :
    Prop :=
  fs = [] ∧ ∃ q ∈ d.quotas, q.id = x.2.id ∧ Owned d q.subscriptionId user

theorem Found.keepsOwners {x : LoadedSubscription × UsageQuota} {fs : List (List Write)} {d' : Database}
    (h : Found user x fs d) (ho : KeepsOwners d d') : Found user x fs d' :=
  have ⟨hf, q, hq, hi, hu⟩ := h
  have ⟨q', hq', hi', hs'⟩ := ho.quotas q hq
  ⟨hf, q', hq', hi'.trans hi, hs' ▸ ho.owned hu⟩

-- What `record_request` does before it compares the usage with the limit.
def findQuota (user : Uuid) (r : Recording) : Service (LoadedSubscription × UsageQuota) := do
  match ← select (getActiveSubscription · user) with
  | some sub => do
    let quota ← currentOrRotateQuota sub r
    return (sub, quota)
  | none     => do
    let sub ← enrollInFreePlan user r.opening
    let quota ← currentOrRotateQuota sub r
    return (sub, quota)

theorem recordRequest_eq (user : Uuid) (r : Recording) :
    recordRequest user r = findQuota user r >>= countRequest := by
  rw [recordRequest, findQuota, bind_assoc]
  refine congrArg _ <| funext fun sub => ?_
  cases sub <;> simp only [bind_assoc, pure_bind] <;> rfl

theorem findQuota_issues (user : Uuid) (r : Recording) : (findQuota user r).Issues Arranges := by
  apply Issues.bind (Issues.select _)
  intro sub
  cases sub
  case some => exact Issues.bind (currentOrRotateQuota_issues ..) fun _ => Issues.pure _
  case none =>
    refine Issues.bind (enrollInFreePlan_issues ..) fun _ => ?_
    exact Issues.bind (currentOrRotateQuota_issues ..) fun _ => Issues.pure _

theorem currentOrRotateQuota_finds {sub : LoadedSubscription} (ho : Owned d sub.id user) (r : Recording) :
    (currentOrRotateQuota sub r).Keeps KeepsOwners d₀ (fun q fs d => Found user (sub, q) fs d) [] d := by
  apply Keeps.bind
  apply Keeps.select
  intro d₁ hd _
  split
  case h_1 q hq =>
    obtain ⟨hm, hs, _⟩ := getCurrentQuota_eq_some hq
    exact Keeps.pure ⟨rfl, q, hm, rfl, hs ▸ hd.owned ho⟩
  case h_2 =>
    apply Keeps.bind
    apply Keeps.ofExcept
    rintro ⟨start, finish⟩ _
    refine Keeps.bind <| Keeps.create_commit fun d₂ hd' hv => ?_
    have h := KeepsOwners.of_amends (.bills <| .rotates _) hv.left
    exact ⟨h, Keeps.pure ⟨rfl, _, Table.mem_put_self .., rfl, h.owned <| hd'.owned <| hd.owned ho⟩⟩

theorem enrollInFreePlan_owned (user : Uuid) (o : Opening) :
    (enrollInFreePlan user o).Keeps KeepsOwners d₀ (fun s fs d => fs = [] ∧ Owned d s.id user) [] d := by
  apply Keeps.atomic
  apply Keeps.bind
  apply Keeps.select
  intro d₁ _ _
  split
  case h_1 => exact Keeps.raise
  case h_2 =>
    apply (createSubscription_keeps_opened _ _ _ _).mono
    rintro s _ _ _ ⟨finish, periodEnd, hs, _, _, hfs⟩ f hf d' _ hv
    have hf : f = [⟨none, .subscription s.toSubscription⟩, ⟨none, .usageQuota <| openedQuota o periodEnd⟩] := by
      simp_all
    have hu : s.userId = user := by rw [hs]; rfl
    rw [hf] at hv ⊢
    constructor
    case left   =>
      refine hv.related (N := Bills) (fun d w hw => .of_amends <| .bills hw) ?_
      simp [Bills.opens, Bills.rotates]
    case right  => exact ⟨rfl, s.toSubscription, Table.mem_put_self .., rfl, hu⟩

theorem findQuota_finds (user : Uuid) (r : Recording) :
    (findQuota user r).Keeps KeepsOwners d₀ (Found user) [] d := by
  have hq : ∀ sub d, Owned d sub.id user →
      (do let quota ← currentOrRotateQuota sub r; return (sub, quota)).Keeps KeepsOwners d₀
        (Found user) [] d := fun sub d ho =>
    Keeps.bind <| (currentOrRotateQuota_finds ho r).mono fun _ _ _ _ h => Keeps.pure h
  apply Keeps.bind
  apply Keeps.select
  intro d₁ _ _
  split
  case h_1 sub hs => exact hq sub d₁ <| of_getActiveSubscription hs
  case h_2 =>
    apply Keeps.bind
    apply (enrollInFreePlan_owned _ _).mono
    rintro sub _ d₂ _ ⟨hfs, ho⟩
    rw [hfs]
    exact hq sub d₂ ho

end Keeps

-- A call of `record_request` which has not counted its request, where `p` remains to be executed
-- before it does.
structure Searches (user : Uuid) (s : Session Database Write Exn Unit)
    (p : Program Database Write Exn (LoadedSubscription × UsageQuota)) (d : Database) : Prop where
  program : s.program = p.bind fun x => (countRequest x).program
  safe    : p.Safe (Commit KeepsOwners) (Found user) (fun _ _ _ => True) s.frames d
  issues  : Session.Issues (Amends Arranges) ⟨p, s.frames⟩ d

-- The states of a call. All others only arrange subscriptions and quotas.
inductive Serves (d : Database) : Call → Session Database Write Exn Unit → Prop
  | searches {user r s p} (h : Searches user s p d) : Serves d (.recordRequest user r) s
  | counted user r : Serves d (.recordRequest user r) ⟨.ret (), []⟩
  | arranges {c s} (hc : ∀ user, c.counts user = false) (h : s.Issues (Amends Arranges) d) : Serves d c s

-- The call has returned after it counted a request of the user.
def Call.served (user : Uuid) (c : Call) (s : Session Database Write Exn Unit) : Bool :=
  match s.program with
  | .ret _  => c.counts user
  | _       => false

section Sessions

variable {d : Database} {user owner : Uuid} {r : Recording} {c : Call}
  {s : Session Database Write Exn Unit} {p : Program Database Write Exn (LoadedSubscription × UsageQuota)}

-- What a session commits, under keys which it holds or which it is about to write.
def HasCommitted (s : Session Database Write Exn Unit) (d d' : Database) : Prop :=
  d' = d ∨ ∃ ws, d' = Store.applyAll d ws ∧ Valid d ws ∧ (∀ w ∈ ws, Amends Bills w) ∧
    ∀ k ∈ ws.flatMap Put.keys, k ∈ s.held ∨ k ∈ (s.next d).flatMap (Store.keys Database)

namespace Searches

theorem of_raise {e : Exn} (hs : s.program = .raise e) (hi : s.Issues (Amends Arranges) d) :
    Searches user s (.raise e) d where
  program := hs
  safe    := trivial
  issues  := ⟨trivial, hi.pending, hi.valid⟩

-- The call is still searching, is about to count, or has failed.
theorem cases (h : Searches user s p d) :
    p.IsCommand ∨ (∃ x, s = ⟨(incrementUsage x.2).program, []⟩ ∧ Found user x [] d) ∨
    ∃ e, s.program = .raise e ∧ s.Issues (Amends Arranges) d := by
  obtain ⟨ps, fs⟩ := s
  obtain ⟨hp, hs, hi⟩ := h
  dsimp only at hp hs hi
  have he : ∀ e, ps = .raise e → Session.Issues (Amends Arranges) ⟨ps, fs⟩ d :=
    fun e he => ⟨he ▸ trivial, hi.pending, hi.valid⟩
  cases p
  case ret x =>
    have hf : fs = [] := hs.left
    subst hf
    rcases countRequest_cases x with ⟨e, hx⟩ | hx
    · have hp : ps = .raise e := hp.trans <| congrArg _ hx
      exact .inr <| .inr ⟨e, hp, he e hp⟩
    · have hp : ps = (incrementUsage x.2).program := hp.trans <| congrArg _ hx
      exact .inr <| .inl ⟨x, congrArg (Session.mk · []) hp, hs⟩
  case raise e  => exact .inr <| .inr ⟨e, hp, he e hp⟩
  all_goals exact .inl trivial

theorem not_served (h : Searches owner s p d) (user : Uuid) (c : Call) : c.served user s = false := by
  rcases h.cases with hc | ⟨x, hs, _⟩ | ⟨e, hs, _⟩
  · rw [Call.served, h.program]
    cases p <;> first | rfl | exact hc.elim
  · rw [hs]; rfl
  · rw [Call.served, hs]

theorem fails (h : Searches user s p d) (e : Exn) : ∃ p, Searches user (s.fails e) p d := by
  rcases h.cases with hc | ⟨x, hs, _⟩ | ⟨e', hs, hi⟩
  · obtain ⟨ps, fs⟩ := s
    obtain ⟨hp, hs, hi⟩ := h
    dsimp only at hp hs hi
    rw [hp, fails_bind hc]
    exact ⟨_, rfl, Program.Safe.fails (s := ⟨p, fs⟩) hs e, hi.fails e⟩
  · rw [hs]
    exact ⟨.raise e, .of_raise rfl ⟨trivial, List.forall_mem_nil _, trivial⟩⟩
  · have hf : s.fails e = s := by simp only [Session.fails, hs]
    rw [hf]
    exact ⟨.raise e', .of_raise hs hi⟩

theorem advance (h : Searches user s p d) (hc : p.IsCommand) :
    (∃ p, Searches user (s.advance d).2 p (s.advance d).1) ∧
    ((s.advance d).1 = d ∨ ∃ ws, (s.advance d).1 = Store.applyAll d ws ∧ Valid d ws ∧
      (∀ w ∈ ws, Amends Arranges w) ∧
      ∀ k ∈ ws.flatMap Put.keys, k ∈ s.held ∨ k ∈ (s.next d).flatMap (Store.keys Database)) := by
  obtain ⟨ps, fs⟩ := s
  obtain ⟨hp, hs, hi⟩ := h
  dsimp only at hp hs hi
  have ⟨hs', _⟩ := Program.Safe.advance (s := ⟨p, fs⟩) hs
  have ⟨hi', hd⟩ := hi.advance
  rw [hp, advance_bind hc, next_bind hc]
  exact ⟨⟨_, rfl, hs', hi'⟩, hd⟩

end Searches

theorem Serves.start (d : Database) (c : Call) : Serves d c ⟨c.service.program, []⟩ := by
  have h : ∀ {α} {s : Service α}, s.Issues Arranges →
      Session.Issues (Amends Arranges) ⟨(do let _ ← s : Service Unit).program, []⟩ d := fun h =>
    .start (Issues.bind (h.mono fun _ => .bills) fun _ => Issues.pure _) d
  cases c
  case subscribe              => exact .arranges (fun _ => rfl) <| h <| subscribe_issues ..
  case cancel                 => exact .arranges (fun _ => rfl) <| h <| cancel_issues ..
  case enrollInFreePlan       => exact .arranges (fun _ => rfl) <| h <| enrollInFreePlan_issues ..
  case expireDueSubscriptions => exact .arranges (fun _ => rfl) <| h <| expireDueSubscriptions_issues ..
  case setPlanActive plan b   =>
    refine .arranges (fun _ => rfl) <| .start ?_ d
    exact Issues.update (fun _ => rfl) fun p => .edits ..
  case recordRequest u r      =>
    have hp : (recordRequest u r).program = _ := congrArg (·.program) <| recordRequest_eq u r
    refine .searches (p := (findQuota u r).program) ⟨hp, ?_, ?_⟩
    · refine ((findQuota_finds u r).safe (Std.Refl.refl d) trivial).mono ?_ fun _ _ _ _ => trivial
      exact fun _ _ _ h => h.right.right
    · exact .start ((findQuota_issues u r).mono fun _ => .bills) d

theorem Serves.stable (h : Serves d c s) {ws : List Write} (hv : Valid d ws)
    (hn : ∀ w ∈ ws, Amends Bills w) (hd : s.held.Disjoint (ws.flatMap Put.keys)) :
    Serves (Store.applyAll d ws) c s := by
  cases h
  case counted          => exact .counted ..
  case arranges hc h    => exact .arranges hc <| h.stable hv hd
  case searches u r p h =>
    refine .searches ⟨h.program, h.safe.stable ?_ (fun _ _ _ _ _ => id) ?_, h.issues.stable hv hd⟩
    · exact fun x fs d d' hi hf => hf.keepsOwners hi.related
    · exact .single ⟨_, hd, ws, rfl, rfl, hv, hv.related (fun _ _ => .of_amends) hn⟩

theorem Call.not_served (hc : ∀ user, c.counts user = false) (user : Uuid) : c.served user s = false := by
  unfold Call.served
  split
  case h_1 => exact hc user
  case h_2 => rfl

theorem Serves.fails (h : Serves d c s) (e : Exn) (user : Uuid) :
    Serves d c (s.fails e) ∧ c.served user (s.fails e) = c.served user s := by
  cases h
  case counted          => exact ⟨.counted .., rfl⟩
  case arranges hc h    => exact ⟨.arranges hc <| h.fails e, by rw [c.not_served hc, c.not_served hc]⟩
  case searches u r p h =>
    have ⟨p, h'⟩ := h.fails e
    exact ⟨.searches h', by rw [h.not_served, h'.not_served]⟩

-- What a session has done to the tables: it may have committed writes, and if it returns then it has
-- counted a request.
structure Progress (c : Call) (user : Uuid) (s s' : Session Database Write Exn Unit) (d d' : Database) :
    Prop where
  commits     : HasCommitted s d d'
  attributed  : Attributed d'
  used        : requestsUsed d' user + (c.served user s).toNat =
                  requestsUsed d user + (c.served user s').toNat

theorem Progress.of_arranges {s' : Session Database Write Exn Unit} {d' : Database} (ha : Attributed d)
    (hs : c.served user s = false) (hs' : c.served user s' = false)
    (h : d' = d ∨ ∃ ws, d' = Store.applyAll d ws ∧ Valid d ws ∧ (∀ w ∈ ws, Amends Arranges w) ∧
      ∀ k ∈ ws.flatMap Put.keys, k ∈ s.held ∨ k ∈ (s.next d).flatMap (Store.keys Database)) :
    Progress c user s s' d d' := by
  rcases h with h | ⟨ws, h, hv, hn, hk⟩
  · rw [h]
    exact ⟨.inl rfl, ha, by rw [hs, hs']⟩
  · have ⟨ha, hu⟩ : Attributed d' ∧ requestsUsed d' user = requestsUsed d user :=
      h ▸ hv.related (I := KeepsUsage user) (fun _ _ => .of_amends) hn ha
    refine ⟨.inr ⟨ws, h, hv, fun w hw => ?_, hk⟩, ha, by rw [hs, hs', hu]⟩
    exact (hn w hw).mono fun _ => Arranges.bills

theorem Serves.advance (h : Serves d c s) (ha : Attributed d) (user : Uuid) :
    Serves (s.advance d).1 c (s.advance d).2 ∧
    Progress c user s (s.advance d).2 d (s.advance d).1 := by
  cases h
  case counted u r => exact ⟨.counted .., .inl rfl, ha, rfl⟩
  case arranges hc h =>
    have ⟨h', hd⟩ := h.advance
    exact ⟨.arranges hc h', .of_arranges ha (c.not_served hc user) (c.not_served hc user) hd⟩
  case searches u r p h =>
    rcases h.cases with hc | ⟨x, hs, hx⟩ | ⟨e, hs, hi⟩
    · have ⟨⟨p', h'⟩, hd⟩ := h.advance hc
      exact ⟨.searches h', .of_arranges ha (h.not_served ..) (h'.not_served ..) hd⟩
    · have ⟨_, q, hq, hi, ho⟩ := hx
      have hs : s = ⟨(incrementUsage q).program, []⟩ := by rw [hs, incrementUsage, ←hi]; rfl
      have hi : Session.Issues (Amends Bills) s d :=
        hs ▸ .start ((incrementUsage_issues q).mono fun _ => .bills) d
      have hd := hi.advance.right
      rw [hs, advance_incrementUsage hq] at hd ⊢
      have h₁ : (Call.recordRequest u r).served user ⟨(incrementUsage q).program, []⟩ = false := rfl
      have h₂ : (Call.recordRequest u r).served user ⟨.ret (), []⟩ = decide (u = user) := rfl
      refine ⟨.counted .., hd, ha.count ho, ?_⟩
      rw [requestsUsed_count hq ho, h₁, h₂]
      by_cases hu : u = user <;> simp [hu]
    · have hd : s.advance d = (d, s) := by
        obtain ⟨ps, fs⟩ := s
        dsimp only at hs
        rw [hs]
        rfl
      rw [hd]
      exact ⟨.searches h, .inl rfl, ha, rfl⟩

end Sessions

section System

open System

variable {ι : Type} [Fintype ι] [DecidableEq ι]

-- The usage of the user has grown by the number of calls which counted a request and returned.
structure Conserved (d : Database) (calls : ι → Call) (user : Uuid) (σ : Backend ι Unit) : Prop where
  serves     : ∀ i, Serves σ.db (calls i) (σ.session i)
  exclusive  : σ.Exclusive
  attributed : Attributed σ.db
  used       : requestsUsed σ.db user =
                requestsUsed d user + count (fun i => (calls i).served user (σ.session i)) true

namespace Conserved

variable {d : Database} {calls : ι → Call} {user : Uuid} {σ : Backend ι Unit}

omit [DecidableEq ι] in
theorem start (ha : Attributed d) (calls : ι → Call) (user : Uuid) :
    Conserved d calls user (.start d fun i => (calls i).service) where
  serves i   := .start d (calls i)
  exclusive  := start_exclusive d _
  attributed := ha
  used       := by
    have h : ∀ i, (calls i).served user ⟨(calls i).service.program, []⟩ = false := by
      intro i
      cases calls i
      case recordRequest => rfl
      all_goals exact Call.not_served (fun _ => rfl) user
    simp [System.start, count, h]

-- One session makes progress, which the others do not notice.
theorem update (h : Conserved d calls user σ) {i : ι} {s : Session Database Write Exn Unit}
    {db : Database} (hs : Serves db (calls i) s) (hp : Progress (calls i) user (σ.session i) s σ.db db)
    (hb : ¬σ.Blocked i ∨ db = σ.db)
    (he : Exclusive (⟨db, Function.update σ.session i s⟩ : Backend ι Unit)) :
    Conserved d calls user ⟨db, Function.update σ.session i s⟩ where
  exclusive  := he
  attributed := hp.attributed
  serves j   := by
    by_cases hj : j = i
    case pos => subst hj; simpa using hs
    case neg =>
      simp only [ne_eq, hj, not_false_eq_true, Function.update_of_ne]
      rcases hp.commits with hd | ⟨ws, hd, hv, hn, hk⟩
      · exact hd ▸ h.serves j
      · rcases hb with hb | hb
        · -- What `i` commits has been locked by `i`, and not by `j`.
          refine hd ▸ (h.serves j).stable hv hn fun k h₁ h₂ => ?_
          rcases hk k h₂ with h₂ | h₂
          · exact h.exclusive j i hj k h₁ h₂
          · exact hb ⟨j, hj, k, h₂, h₁⟩
        · exact hb ▸ h.serves j
  used       := by
    have hc := count_update (fun j => (calls j).served user (σ.session j)) i true <| (calls i).served user s
    have hu : (fun j => (calls j).served user (Function.update σ.session i s j)) =
        Function.update (fun j => (calls j).served user (σ.session j)) i ((calls i).served user s) := by
      funext j
      by_cases hj : j = i
      case pos => subst hj; simp
      case neg => simp [hj]
    have ht : ∀ b : Bool, (if b = true then 1 else 0) = b.toNat := fun b => by cases b <;> rfl
    simp only [ht, ←hu] at hc
    have h₁ := hp.used
    have h₂ := h.used
    dsimp only
    omega

theorem step (h : Conserved d calls user σ) (a : Action ι Exn) :
    Conserved d calls user (σ.step a) := by
  have he := h.exclusive.step a
  rcases step_cases (σ := σ) a with hs | ⟨i, -, hb, hs⟩ | ⟨i, e, -, hs⟩
  · rwa [hs]
  · have ⟨h', hp⟩ := (h.serves i).advance h.attributed user
    rw [hs] at he ⊢
    exact h.update h' hp (.inl hb) he
  · have ⟨h', hp⟩ := (h.serves i).fails e user
    rw [hs] at he ⊢
    exact h.update h' ⟨.inl rfl, h.attributed, by rw [hp]⟩ (.inr rfl) he

theorem run (h : Conserved d calls user σ) (as : List (Action ι Exn)) :
    Conserved d calls user (σ.run as) := by
  induction as generalizing σ
  case nil        => exact h
  case cons a _ hi => exact hi <| h.step a

end Conserved

omit [Fintype ι] [DecidableEq ι] in
theorem served_iff (σ : Backend ι Unit) (user : Uuid) (c : Call) (i : ι) :
    c.served user (σ.session i) = true ↔ c.counts user ∧ σ.Returned i () := by
  unfold Call.served Returned
  cases (σ.session i).program <;> simp

-- In every interleaving, the usage of a user grows by the number of requests that were recorded.
theorem usage_conserved (d : Database) (calls : ι → Call) (as : List (Action ι Exn)) (user : Uuid)
    (hr : ∀ q ∈ d.quotas, ∃ s ∈ d.subscriptions, s.id = q.subscriptionId) :
    let σ := (System.start d fun i => (calls i).service).run as
    requestsUsed σ.db user =
      requestsUsed d user + Finset.card {i | (calls i).counts user ∧ σ.Returned i ()} := by
  intro σ
  have h : Conserved d calls user σ := (Conserved.start (fun q hq _ => hr q hq) calls user).run as
  rw [h.used, count]
  exact congrArg _ <| congrArg Finset.card <| Finset.filter_congr fun i _ => served_iff σ user _ i

-- One of two requests is charged to a subscription which has been canceled in the meantime.
def exampleCalls : Fin 3 → Call
  | 0 => .recordRequest 1 (exampleRecording 1)
  | 1 => .cancel 1 (.midnight 739000) (exampleOpening 2)
  | 2 => .recordRequest 1 (exampleRecording 3)

def exampleOrder : List (Action (Fin 3) Exn) :=
  [.go 0, .go 0] ++ .replicate 9 (.go 1) ++ [.go 2, .go 0, .go 2, .go 2]

theorem usage_conserved_across_cancellation :
    requestsUsed ((System.start Seed.enrolled fun i => (exampleCalls i).service).run exampleOrder).db 1 = 0 + 2 :=
  (usage_conserved Seed.enrolled exampleCalls exampleOrder 1 (by decide)).trans <|
    congrArg₂ (· + ·) (by decide) (by decide +kernel)

end System
end SaasBackend
