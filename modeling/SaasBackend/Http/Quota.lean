import SaasBackend.Http.Accounting
import SaasBackend.Http.Context

open Calendar ReadCommitted ReadCommitted.Service

namespace SaasBackend

open Service

-- One request of a sequence, with all that its way through the middlewares depends on.
structure Visit where
  request   : HttpRequest
  stopwatch : Stopwatch
  recorder  : Recorder
  view      : View

namespace Visit

def run (v : Visit) (d : Database) : HttpResponse × Database :=
  let (response, x) := stack v.stopwatch v.recorder v.view ⟨v.request, d, []⟩
  (response, x.db)

def now (v : Visit) : Instant :=
  v.recorder.recording.now

-- The request as the permissions and throttles of the view see it.
def seen (d : Database) (v : Visit) : HttpRequest :=
  authenticate v.view.credentials <| attachSubscription d v.request

-- Whether the request gets as far as to the view.
def passes (d : Database) (v : Visit) : Bool :=
  v.view.permits (v.seen d) && v.view.allows (v.seen d)

-- Whether the request counts towards the quota.
def isCounted (v : Visit) : Bool :=
  !isUnrecorded v.request.path && IsRecordable v.request

end Visit

-- The responses to requests which are processed one after another.
def process : List Visit → Database → List HttpResponse × Database
  | [],      d => ([], d)
  | v :: vs, d =>
    let (response, d) := v.run d
    let (responses, d) := process vs d
    (response :: responses, d)

-- The view leaves alone what the quota of a user depends on, and the log.
structure View.IsNeutral (v : View) : Prop where
  subscriptions : ∀ r d, (v.respond r d).2.subscriptions = d.subscriptions
  plans         : ∀ r d, (v.respond r d).2.plans = d.plans
  quotas        : ∀ r d, (v.respond r d).2.quotas = d.quotas
  requestLogs   : ∀ r d, (v.respond r d).2.requestLogs = d.requestLogs

-- Requests of one user, who keeps a plan with a quota, within one period of the quota.
structure InWindow (d : Database) (user : Uuid) (s : LoadedSubscription) (q : UsageQuota)
    (vs : List Visit) : Prop where
  active   : getActiveSubscription d user = some s
  limited  : 0 < s.plan.requestQuota
  current  : ∀ v ∈ vs, getCurrentQuota d s.id v.now = some q
  user     : ∀ v ∈ vs, ∃ c, v.view.credentials = some (user, c)
  neutral  : ∀ v ∈ vs, v.view.IsNeutral
  fresh    : ∀ v ∈ vs, ∀ l ∈ d.requestLogs, l.id ≠ v.recorder.logId
  distinct : vs.Pairwise (·.recorder.logId ≠ ·.recorder.logId)

-- At most as many requests as the plan allows are answered by their view, and those which come once
-- the quota is used up are refused for that reason.
structure QuotaEnforced (d : Database) (s : LoadedSubscription) (vs : List Visit) : Prop where
  answered : (process vs d).1.countP HttpResponse.isView ≤ s.plan.requestQuota
  refused  : ∀ ps v qs, vs = ps ++ v :: qs → ∀ q,
              getCurrentQuota (process ps d).2 s.id v.now = some q →
              q.requestsUsed = s.plan.requestQuota →
              (v.run (process ps d).2).1 = HttpResponse.quotaExceeded

section Dispatch

variable {v : View} {x : Exchange}

theorem View.dispatch_request :
    (v.dispatch x).2.request = authenticate v.credentials x.request := by
  simp only [View.dispatch]
  split
  · split <;> rfl
  · split <;> rfl

theorem View.dispatch_isView :
    (v.dispatch x).1.isView =
      (v.permits (authenticate v.credentials x.request) &&
        v.allows (authenticate v.credentials x.request)) := by
  simp only [View.dispatch]
  cases hp : v.permits (authenticate v.credentials x.request)
  case false => simp only [Bool.not_false, if_true]; split <;> rfl
  case true  => cases v.allows (authenticate v.credentials x.request) <;> rfl

-- No layer refuses a request for the quota of its user.
theorem View.dispatch_ne_quotaExceeded : (v.dispatch x).1 ≠ HttpResponse.quotaExceeded := by
  have h : HttpResponse.quotaExceeded = .refused ⟨429, "quota_exceeded"⟩ := rfl
  simp only [View.dispatch]
  split
  · split <;> simp [h]
  · split <;> simp [h]

theorem View.dispatch_preserved {α : Type} (g : Database → α)
    (h : ∀ r d, g (v.respond r d).2 = g d) : g (v.dispatch x).2.db = g x.db := by
  simp only [View.dispatch]
  split
  · split <;> rfl
  · split
    · rfl
    · exact h ..

end Dispatch

namespace Visit

variable {v : Visit} {d : Database} {user : Uuid} {s : LoadedSubscription} {q : UsageQuota}

-- The exchange after the view, and before the middlewares get to see the response.
def answer (v : Visit) (d : Database) : HttpResponse × Exchange :=
  v.view.dispatch ⟨attachSubscription d v.request, d, []⟩

theorem run_fst : (v.run d).1 = (v.answer d).1 := by
  simp only [run, stack, requestLoggingMiddleware, requestAnalyticsMiddleware]
  split
  · rfl
  · split <;> rfl

theorem isView_run : (v.run d).1.isView = v.passes d := by
  rw [run_fst, answer, View.dispatch_isView]
  rfl

theorem run_ne_quotaExceeded : (v.run d).1 ≠ HttpResponse.quotaExceeded :=
  v.run_fst ▸ View.dispatch_ne_quotaExceeded

theorem attachSubscription_path (d : Database) (r : HttpRequest) :
    (attachSubscription d r).path = r.path := by
  simp only [attachSubscription]
  split <;> rfl

theorem isRecordable_answer : IsRecordable (v.answer d).2.request ↔ IsRecordable v.request := by
  have h : ∀ r : HttpRequest, IsRecordable (attachSubscription d r) ↔ IsRecordable r := by
    intro r
    simp only [attachSubscription]
    split <;> rfl
  rw [answer, View.dispatch_request]
  exact h v.request

theorem path_answer : (v.answer d).2.request.path = v.request.path := by
  rw [answer, View.dispatch_request]
  exact attachSubscription_path d v.request

theorem user_answer (hu : ∃ c, v.view.credentials = some (user, c)) :
    (v.answer d).2.request.user = some user := by
  have ⟨c, hu⟩ := hu
  rw [answer, View.dispatch_request, authenticate, hu]
  rfl

theorem answer_preserved {α : Type} (g : Database → α) (h : ∀ r d, g (v.view.respond r d).2 = g d) :
    g (v.answer d).2.db = g d :=
  View.dispatch_preserved g h

theorem isCounted_iff :
    v.isCounted ↔ isUnrecorded v.request.path = false ∧ IsRecordable v.request := by
  simp [isCounted]

theorem run_snd_of_not_counted (hu : ∃ c, v.view.credentials = some (user, c))
    (h : ¬v.isCounted) : (v.run d).2 = (v.answer d).2.db := by
  have hm : (v.run d).2 = (requestAnalyticsMiddleware v.recorder v.view.dispatch
    ⟨attachSubscription d v.request, d, []⟩).2.db := rfl
  cases hp : isUnrecorded v.request.path
  case true  =>
    have hp : isUnrecorded (v.answer d).2.request.path = true := path_answer ▸ hp
    exact hm.trans <| congrArg (fun x : HttpResponse × Exchange => x.2.db) <| if_pos hp
  case false =>
    have hr : ¬IsRecordable (v.answer d).2.request :=
      fun hr => h <| isCounted_iff.mpr ⟨hp, isRecordable_answer.mp hr⟩
    have hp : isUnrecorded (v.answer d).2.request.path = false := path_answer ▸ hp
    rw [hm, requestAnalyticsMiddleware_eq (user_answer hu) hp]
    exact congrArg Exchange.db <| record_of_not_recordable hr ..

-- The database once the response of the view has been added to the log.
def logged (v : Visit) (user : Uuid) (d : Database) : Database :=
  (v.answer d).2.db.put <| .requestLog <|
    requestLog (v.answer d).2.request (v.answer d).1 user v.recorder

theorem run_snd_of_counted (hu : ∃ c, v.view.credentials = some (user, c)) (h : v.isCounted)
    (hf : ∀ l ∈ (v.answer d).2.db.requestLogs, l.id ≠ v.recorder.logId) :
    (v.run d).2 = ((recordRequest user v.recorder.recording).run <| v.logged user d).2 := by
  have ⟨hp, hr⟩ := isCounted_iff.mp h
  have hp : isUnrecorded (v.answer d).2.request.path = false := path_answer ▸ hp
  have hm : (v.run d).2 = (requestAnalyticsMiddleware v.recorder v.view.dispatch
    ⟨attachSubscription d v.request, d, []⟩).2.db := rfl
  rw [hm, requestAnalyticsMiddleware_eq (user_answer hu) hp]
  exact congrArg Exchange.db <| record_of_recordable (isRecordable_answer.mpr hr) hf _

-- What processing the request does to the quota of its user.
def charge (limit : Nat) (v : Visit) (q : UsageQuota) : UsageQuota :=
  if v.isCounted ∧ ¬isOverLimit limit q.requestsUsed then { q with requestsUsed := q.requestsUsed + 1 }
  else q

end Visit

namespace InWindow

variable {d : Database} {user : Uuid} {s : LoadedSubscription} {q : UsageQuota} {v : Visit}
  {vs : List Visit}

-- What one request changes about the subscription of its user, and about the log.
structure Charged (d : Database) (s : LoadedSubscription) (q : UsageQuota) (v : Visit)
    (d' : Database) : Prop where
  subscriptions : d'.subscriptions = d.subscriptions
  plans         : d'.plans = d.plans
  quotas        : d'.quotas = d.quotas.put (v.charge s.plan.requestQuota q)
  requestLogs   : ∀ l ∈ d'.requestLogs, l ∈ d.requestLogs ∨ l.id = v.recorder.logId

theorem charged (h : InWindow d user s q (v :: vs)) : Charged d s q v (v.run d).2 := by
  have hv := List.mem_cons_self (a := v) (l := vs)
  have hq := h.current v hv
  have hn := h.neutral v hv
  have hs := v.answer_preserved (d := d) (·.subscriptions) hn.subscriptions
  have hp := v.answer_preserved (d := d) (·.plans) hn.plans
  have hu := v.answer_preserved (d := d) (·.quotas) hn.quotas
  have hl := v.answer_preserved (d := d) (·.requestLogs) hn.requestLogs
  by_cases hc : v.isCounted
  case neg =>
    rw [Visit.run_snd_of_not_counted (h.user v hv) hc]
    refine ⟨hs, hp, hu.trans ?_, fun l hl' => .inl <| hl ▸ hl'⟩
    rw [Visit.charge, if_neg <| mt And.left hc, Table.put_of_mem (getCurrentQuota_eq_some hq).left]
  case pos =>
    have hf := fun l hl' => h.fresh v hv l <| hl ▸ hl'
    have ha : getActiveSubscription (v.logged user d) user = some s :=
      (getActiveSubscription_congr hs hp user).trans h.active
    have hq' : getCurrentQuota (v.logged user d) s.id v.now = some q :=
      (getCurrentQuota_congr hu s.id v.now).trans hq
    have hl : ∀ l ∈ (v.logged user d).requestLogs, l ∈ d.requestLogs ∨ l.id = v.recorder.logId := by
      intro l hm
      cases Table.mem_put.mp hm
      case inl hm => exact .inr <| congrArg RequestLog.id hm
      case inr hm => exact .inl <| hl ▸ hm.left
    rw [Visit.run_snd_of_counted (h.user v hv) hc hf, recordRequest_run ha, charge_run hq']
    by_cases ho : isOverLimit s.plan.requestQuota q.requestsUsed
    case pos =>
      rw [if_pos ho]
      refine ⟨hs, hp, hu.trans ?_, hl⟩
      rw [Visit.charge, if_neg fun h => h.right ho]
      exact (Table.put_of_mem (getCurrentQuota_eq_some hq).left).symm
    case neg =>
      rw [if_neg ho]
      refine ⟨hs, hp, (congrArg (Table.put · _) hu).trans ?_, hl⟩
      rw [Visit.charge, if_pos ⟨hc, ho⟩]

theorem step (h : InWindow d user s q (v :: vs)) :
    InWindow (v.run d).2 user s (v.charge s.plan.requestQuota q) vs := by
  have hc := h.charged
  have ⟨hd, hp⟩ := List.pairwise_cons.mp h.distinct
  refine {
    active   := (getActiveSubscription_congr hc.subscriptions hc.plans user).trans h.active
    limited  := h.limited
    current  := fun w hw => ?_
    user     := fun w hw => h.user w <| .tail _ hw
    neutral  := fun w hw => h.neutral w <| .tail _ hw
    fresh    := fun w hw l hl => ?_
    distinct := hp
  }
  · have hq := h.current w <| .tail _ hw
    calc getCurrentQuota (v.run d).2 s.id w.now
      _ = getCurrentQuota { d with quotas := d.quotas.put _ } s.id w.now :=
        getCurrentQuota_congr hc.quotas ..
      _ = some _ := by
        unfold Visit.charge
        split <;> exact getCurrentQuota_put hq rfl rfl rfl rfl
  · cases hc.requestLogs l hl
    case inl hl => exact h.fresh w (.tail _ hw) l hl
    case inr hl => exact hl ▸ hd w hw

theorem run {ps qs : List Visit} (h : InWindow d user s q (ps ++ qs)) :
    InWindow (process ps d).2 user s (ps.foldl (fun q v => v.charge s.plan.requestQuota q) q) qs := by
  induction ps generalizing d q
  case nil            => exact h
  case cons v ps hi   => exact hi h.step

theorem countP_isView (h : InWindow d user s q vs) :
    (process vs d).1.countP HttpResponse.isView = vs.countP (·.passes d) := by
  induction vs generalizing d q
  case nil          => rfl
  case cons v vs hi =>
    have hp : ∀ w : Visit, w.passes (v.run d).2 = w.passes d := fun w => by
      have ha := getActiveSubscription_congr h.charged.subscriptions h.charged.plans
      simp only [Visit.passes, Visit.seen, attachSubscription, funext ha]
    have hi := hi h.step
    simp only [hp] at hi
    rw [process, List.countP_cons, List.countP_cons, Visit.isView_run, hi]

end InWindow

theorem requestsUsed_foldl_charge {limit : Nat} (h : 0 < limit) (q : UsageQuota) (vs : List Visit) :
    (vs.foldl (fun q v => v.charge limit q) q).requestsUsed =
      max q.requestsUsed (min limit (q.requestsUsed + vs.countP Visit.isCounted)) := by
  induction vs generalizing q
  case nil          => simp
  case cons v vs hi =>
    have hn : limit ≠ 0 := by omega
    rw [List.foldl_cons, hi, List.countP_cons]
    by_cases hc : v.isCounted
    case neg => simp [Visit.charge, hc]
    case pos =>
      by_cases ho : limit ≤ q.requestsUsed
      · simp [Visit.charge, isOverLimit, hn, hc, ho]
      · simp [Visit.charge, isOverLimit, hn, hc, ho]
        omega

-- The usage stays away from the limit before each element of a list iff it does before the last one.
theorem forall_prefix_ne_iff {α : Type} (p : α → Bool) (l : List α) (limit used : Nat) :
    (∀ ps a qs, l = ps ++ a :: qs → max used (min limit (used + ps.countP p)) ≠ limit) ↔
      l = [] ∨ limit < used ∨ used + l.dropLast.countP p < limit := by
  constructor
  case mp =>
    intro h
    by_cases hl : l = []
    case pos => exact .inl hl
    case neg =>
      have := h l.dropLast (l.getLast hl) [] (List.dropLast_append_getLast hl).symm
      omega
  case mpr =>
    intro h ps a qs hl
    have hs : ps.Sublist l.dropLast := by
      rw [hl, List.dropLast_append_of_ne_nil <| List.cons_ne_nil a qs]
      exact List.sublist_append_left ..
    have hc := hs.countP_le (p := p)
    have hn : l ≠ [] := by simp [hl]
    have h := h.resolve_left hn
    omega

section Example

def exampleVisit (logId : Uuid) : Visit where
  request   := ⟨some "GET", "/api/v1/users/me/", [], none, none, none, none, none⟩
  stopwatch := ⟨0, 0⟩
  recorder  := { exampleRecorder with logId := logId }
  view      := exampleView

theorem exampleView_isNeutral : exampleView.IsNeutral :=
  ⟨fun _ _ => rfl, fun _ _ => rfl, fun _ _ => rfl, fun _ _ => rfl⟩

theorem exampleVisits_inWindow (logIds : List Uuid) (h : logIds.Pairwise (· ≠ ·)) :
    InWindow Seed.enrolled 1 Seed.subscription Seed.quota (logIds.map exampleVisit) where
  active   := rfl
  limited  := by decide
  current  := List.forall_mem_map.mpr fun _ _ => rfl
  user     := List.forall_mem_map.mpr fun _ _ => ⟨.jwt, rfl⟩
  neutral  := List.forall_mem_map.mpr fun _ _ => exampleView_isNeutral
  fresh    := fun _ _ _ hl => (Table.not_mem_empty _ hl).elim
  distinct := List.pairwise_map.mpr h

end Example
end SaasBackend
