import SaasBackend.Subscriptions.Seed
import SaasBackend.Subscriptions.Serial
import SaasBackend.Http.Middleware

open Calendar ReadCommitted ReadCommitted.Service

namespace SaasBackend

open Service

-- One request of the user is added to the log, and counted once.
structure RecordedOnce (user : Uuid) (x x' : Exchange) : Prop where
  logged  : ∃ l, l.userId = some user ∧ l ∉ x.db.requestLogs ∧
              ∀ l', l' ∈ x'.db.requestLogs ↔ l' = l ∨ l' ∈ x.db.requestLogs
  charged : x'.charged = user :: x.charged

-- Those headers and methods that the columns of the log can hold. All others are truncated.
def IsRecordable (request : HttpRequest) : Prop :=
  (request.method.getD "").length ≤ 8 ∧
  (clientIp request = "" ∨ Text.isIpAddress (clientIp request))

instance (request : HttpRequest) : Decidable (IsRecordable request) :=
  inferInstanceAs <| Decidable (_ ∧ _)

variable {request : HttpRequest} {response : HttpResponse} {user : Uuid} {e : Recorder}

theorem requestLog_fits_iff :
    (Row.requestLog <| requestLog request response user e).fits ↔ IsRecordable request := by
  have hp := Text.length_truncate_le request.path 512
  have hu := Text.length_truncate_le ((request.header "HTTP_USER_AGENT").getD "") 512
  by_cases h : clientIp request = "" <;> simp [Row.fits, requestLog, IsRecordable, hp, hu, h]

-- What counting a request does to the other tables: nothing.
theorem recordRequest_requestLogs (user : Uuid) (r : Recording) (d : Database) :
    ((recordRequest user r).run d).2.requestLogs = d.requestLogs :=
  (recordRequest_maintains (I := Preserved (·.requestLogs))
    (fun _ _ hw _ => by cases hw <;> rfl) user r).related d

theorem record_of_not_recordable (h : ¬IsRecordable request) (d : Database) (charged : List Uuid) :
    (record response user e ⟨request, d, charged⟩).2 = ⟨request, d, charged⟩ := by
  rw [record, run_create_of_not_fits (mt requestLog_fits_iff.mp h)]

theorem record_of_recordable {d : Database} (h : IsRecordable request)
    (hf : ∀ l ∈ d.requestLogs, l.id ≠ e.logId) (charged : List Uuid) :
    (record response user e ⟨request, d, charged⟩).2 =
      ⟨request,
        ((recordRequest user e.recording).run <|
          d.put <| .requestLog <| requestLog request response user e).2,
        user :: charged⟩ := by
  have hr := run_create_of_fits (n := requestLog request response user e) (d := d)
    (requestLog_fits_iff.mpr h) (fun l hl hk => hf l hl <| Key.requestLog.inj hk)
    (fun _ _ _ hk => by cases hk)
  rw [record, hr]

theorem recordedOnce_of_recordable {d : Database} (h : IsRecordable request)
    (hf : ∀ l ∈ d.requestLogs, l.id ≠ e.logId) (charged : List Uuid) :
    RecordedOnce user ⟨request, d, charged⟩ (record response user e ⟨request, d, charged⟩).2 := by
  rw [record_of_recordable h hf]
  refine ⟨⟨requestLog request response user e, rfl, fun hm => hf _ hm rfl, fun l => ?_⟩, rfl⟩
  rw [recordRequest_requestLogs]
  apply Table.mem_put.trans
  apply or_congr_right
  apply and_iff_left_of_imp
  intro hm hk
  exact hf l hm <| Key.requestLog.inj hk

theorem requestAnalyticsMiddleware_eq {getResponse : Handler} {x : Exchange}
    (hu : (getResponse x).2.request.user = some user)
    (hp : isUnrecorded (getResponse x).2.request.path = false) :
    (requestAnalyticsMiddleware e getResponse x).2 =
      (record (getResponse x).1 user e (getResponse x).2).2 := by
  simp [requestAnalyticsMiddleware, hu, hp]

-- A view that responds to the user 1, who is authenticated by a JWT.
def exampleView : View where
  credentials := some (1, .jwt)
  permits _   := true
  allows _    := true
  respond _ d := (200, d)

def exampleRecorder : Recorder where
  logId     := 1
  createdAt := .midnight 739000
  recording := ⟨⟨.midnight 739000, 1, 1⟩, .midnight 739000, .midnight 739000, 2⟩

def exampleExchange (headers : List (String × String)) : Exchange where
  request := ⟨some "GET", "/api/v1/users/me/", headers, none, none, none, none, none⟩
  db      := Seed.database
  charged := []

end SaasBackend
