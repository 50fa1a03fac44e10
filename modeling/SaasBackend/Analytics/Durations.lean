import SaasBackend.Analytics.Rollup
import SaasBackend.Http.Quota

open Calendar Grouping ReadCommitted ReadCommitted.Service

namespace SaasBackend

open Service

-- Requests of authenticated users, none of which has been measured before. The views leave the log alone.
structure Traffic (vs : List Visit) : Prop where
  user     : ∀ v ∈ vs, ∃ user c, v.view.credentials = some (user, c)
  new      : ∀ v ∈ vs, v.request.durationMs = none
  neutral  : ∀ v ∈ vs, ∀ r d, (v.view.respond r d).2.requestLogs = d.requestLogs
  distinct : vs.Pairwise (·.recorder.logId ≠ ·.recorder.logId)

-- The duration which was measured for the request of a log entry.
def measured (vs : List Visit) (l : RequestLog) : Nat :=
  ((vs.find? (·.recorder.logId = l.id)).map (·.stopwatch.durationMs)).getD 0

def truncatedMean (ms : List Nat) : Nat :=
  ms.sum / ms.length

-- The log has the measured durations of the requests, and the averages are those of the measured ones.
structure LogsDurations (vs : List Visit) (d : Database) : Prop where
  row     : ∀ v ∈ vs, ∀ l ∈ d.requestLogs, l.id = v.recorder.logId →
              l.responseMs = v.stopwatch.durationMs
  summary : ∀ now user days logs s, summaryLogs d now user days = .ok logs →
              usageSummary d now user days = .ok s →
              s.avgResponseMs = truncatedMean (logs.map (measured vs))
  rollup  : ∀ date user f, (user, f) ∈ figuresByUser d date →
              f.avgResponseMs = truncatedMean ((logsOf d user date).map (measured vs))

section Averages

variable {d : Database} {vs : List Visit} {m : RequestLog → Nat}

theorem avgResponseMs_eq {logs : List RequestLog} (h : ∀ l ∈ logs, l.responseMs = m l) :
    avgResponseMs logs = truncatedMean (logs.map m) := by
  rw [avgResponseMs, truncatedMean, List.map_congr_left h, List.length_map]

theorem usageSummary_eq_ok {now : Instant} {user : Option Uuid} {days : Nat} {s : UsageSummary}
    {logs : List RequestLog} (hl : summaryLogs d now user days = .ok logs)
    (h : usageSummary d now user days = .ok s) : s.avgResponseMs = avgResponseMs logs := by
  rw [usageSummary, hl] at h
  cases h
  rfl

theorem mem_of_summaryLogs {now : Instant} {user : Option Uuid} {days : Nat} {logs : List RequestLog}
    (h : summaryLogs d now user days = .ok logs) : ∀ l ∈ logs, l ∈ d.requestLogs := by
  intro l hl
  rw [summaryLogs] at h
  cases ho : orOverflow (now.subDays days)
  case error  => rw [ho] at h; cases h
  case ok     =>
    rw [ho] at h
    cases h
    exact (List.mem_filter.mp (mem_scope.mp hl).left).left

end Averages

-- Every request that is counted has an entry, in which the duration is missing.
structure Entered (vs : List Visit) (d d' : Database) : Prop where
  kept  : ∀ l ∈ d.requestLogs, l ∈ d'.requestLogs
  added : ∀ v ∈ vs, v.isCounted → ∃ l ∈ d'.requestLogs, l.id = v.recorder.logId ∧ l.responseMs = 0
  only  : ∀ l ∈ d'.requestLogs, l ∈ d.requestLogs ∨
            ∃ v ∈ vs, v.isCounted ∧ l.id = v.recorder.logId ∧ l.responseMs = 0

section Process

variable {d : Database} {v : Visit} {vs : List Visit}

theorem durationMs_answer (h : v.request.durationMs = none) :
    (v.answer d).2.request.durationMs = none := by
  rw [Visit.answer, View.dispatch_request]
  simp only [attachSubscription]
  split <;> exact h

theorem run_requestLogs_of_not_counted (h : Traffic (v :: vs)) (hc : ¬v.isCounted) :
    (v.run d).2.requestLogs = d.requestLogs := by
  have ⟨user, hu⟩ := h.user v List.mem_cons_self
  rw [Visit.run_snd_of_not_counted hu hc]
  exact v.answer_preserved (·.requestLogs) <| h.neutral v List.mem_cons_self

-- The duration is measured only after the request has been logged.
theorem run_requestLogs_of_counted (h : Traffic (v :: vs)) (hc : v.isCounted)
    (hf : ∀ l ∈ d.requestLogs, l.id ≠ v.recorder.logId) :
    ∃ l, l.id = v.recorder.logId ∧ l.responseMs = 0 ∧
      ∀ l', l' ∈ (v.run d).2.requestLogs ↔ l' = l ∨ l' ∈ d.requestLogs := by
  have ⟨user, hu⟩ := h.user v List.mem_cons_self
  have hl := v.answer_preserved (d := d) (·.requestLogs) <| h.neutral v List.mem_cons_self
  have hn := durationMs_answer (d := d) <| h.new v List.mem_cons_self
  refine ⟨requestLog (v.answer d).2.request (v.answer d).1 user v.recorder, rfl, ?_, fun l' => ?_⟩
  · change (v.answer d).2.request.durationMs.getD 0 = 0
    rw [hn]
    rfl
  · rw [Visit.run_snd_of_counted hu hc (hl ▸ hf), recordRequest_requestLogs]
    refine Table.mem_put.trans <| or_congr_right ?_
    rw [hl]
    exact and_iff_left_of_imp fun hm hk => hf l' hm <| Key.requestLog.inj hk

theorem Traffic.tail (h : Traffic (v :: vs)) : Traffic vs where
  user     := fun w hw => h.user w <| List.mem_cons_of_mem _ hw
  new      := fun w hw => h.new w <| List.mem_cons_of_mem _ hw
  neutral  := fun w hw => h.neutral w <| List.mem_cons_of_mem _ hw
  distinct := (List.pairwise_cons.mp h.distinct).right

-- What one request adds to the log.
theorem entered_run (h : Traffic (v :: vs)) (hf : ∀ l ∈ d.requestLogs, l.id ≠ v.recorder.logId) :
    Entered [v] d (v.run d).2 := by
  by_cases hc : v.isCounted
  case neg =>
    have he : ∀ l, l ∈ (v.run d).2.requestLogs ↔ l ∈ d.requestLogs := fun l => by
      rw [run_requestLogs_of_not_counted h hc]
    refine ⟨fun l hl => (he l).mpr hl, ?_, fun l hl => .inl <| (he l).mp hl⟩
    intro w hw hc'
    cases List.mem_singleton.mp hw
    exact (hc hc').elim
  case pos =>
    have ⟨l, hi, hr, hm⟩ := run_requestLogs_of_counted h hc hf
    refine ⟨fun l' hl' => (hm l').mpr <| .inr hl', ?_, fun l' hl' => ?_⟩
    · intro w hw _
      cases List.mem_singleton.mp hw
      exact ⟨l, (hm l).mpr <| .inl rfl, hi, hr⟩
    · cases (hm l').mp hl'
      case inl he => exact .inr ⟨v, List.mem_singleton_self v, hc, he ▸ hi, he ▸ hr⟩
      case inr hl => exact .inl hl

theorem process_cons_snd : (process (v :: vs) d).2 = (process vs (v.run d).2).2 :=
  rfl

theorem entered_process (h : Traffic vs) (hf : ∀ v ∈ vs, ∀ l ∈ d.requestLogs, l.id ≠ v.recorder.logId) :
    Entered vs d (process vs d).2 := by
  induction vs generalizing d
  case nil          => exact ⟨fun l hl => hl, fun v hv => by simp at hv, fun l hl => .inl hl⟩
  case cons v vs hi =>
    rw [process_cons_snd]
    have ⟨hd, _⟩ := List.pairwise_cons.mp h.distinct
    have h₁ := entered_run (d := d) h fun l hl => hf v List.mem_cons_self l hl
    have h₂ : Entered vs (v.run d).2 (process vs (v.run d).2).2 := by
      refine hi h.tail fun w hw l hl => ?_
      cases h₁.only l hl
      case inl hl => exact hf w (List.mem_cons_of_mem _ hw) l hl
      case inr hl =>
        obtain ⟨_, hm, _, hk, _⟩ := hl
        cases List.mem_singleton.mp hm
        rw [hk]
        exact hd w hw
    refine ⟨fun l hl => h₂.kept l <| h₁.kept l hl, fun w hw hc => ?_, fun l hl => ?_⟩
    · cases List.mem_cons.mp hw
      case inl he =>
        have ⟨l, hl, hk⟩ := h₁.added w (he ▸ List.mem_singleton_self v) hc
        exact ⟨l, h₂.kept l hl, hk⟩
      case inr hw => exact h₂.added w hw hc
    · cases h₂.only l hl
      case inr hv =>
        have ⟨w, hw, hk⟩ := hv
        exact .inr ⟨w, List.mem_cons_of_mem _ hw, hk⟩
      case inl hl =>
        refine (h₁.only l hl).imp_right fun ⟨w, hw, hk⟩ => ⟨w, ?_, hk⟩
        exact List.mem_singleton.mp hw ▸ List.mem_cons_self

theorem Traffic.eq_of_logId {v w : Visit} (h : Traffic vs) (hv : v ∈ vs) (hw : w ∈ vs)
    (he : v.recorder.logId = w.recorder.logId) : v = w :=
  List.Pairwise.forall_of_forall_of_flip
    (R := fun v w : Visit => v.recorder.logId = w.recorder.logId → v = w)
    (fun _ _ _ => rfl) (h.distinct.imp fun hn hk => (hn hk).elim)
    (h.distinct.imp fun hn hk => (hn hk.symm).elim) hv hw he

theorem measured_eq {l : RequestLog} (h : Traffic vs) (hv : v ∈ vs) (hl : l.id = v.recorder.logId) :
    measured vs l = v.stopwatch.durationMs := by
  rw [measured]
  cases hw : vs.find? (·.recorder.logId = l.id)
  case none   => simpa [hl] using List.find?_eq_none.mp hw v hv
  case some w =>
    have hk : w.recorder.logId = l.id := by simpa using List.find?_some hw
    rw [h.eq_of_logId (List.mem_of_find?_eq_some hw) hv (hk.trans hl)]
    rfl

end Process

section Example

def visitOf (s : Stopwatch) : Visit where
  request   := (exampleExchange [("REMOTE_ADDR", "10.0.0.1")]).request
  stopwatch := s
  recorder  := exampleRecorder
  view      := exampleView

theorem visitOf_traffic (s : Stopwatch) : Traffic [visitOf s] := by
  refine ⟨?_, ?_, ?_, List.pairwise_singleton ..⟩ <;> intro v hv <;> cases List.mem_singleton.mp hv
  · exact ⟨1, .jwt, rfl⟩
  · rfl
  · exact fun _ _ => rfl

end Example
end SaasBackend
