import TraceTables.Proofs.Acceptance
import TraceTables.Renderer.Session

/-!
# Events that are rejected

An event is rejected if it reports that decoding failed, or cannot occur where it does. The
renderer then answers with that fault and is left as it was, down to its sink and its remarks: what
an event would change it changes by its plan, and a rejected event has none. Everything else fails
by a device (`serve_error`), so that the fault alone tells whether a request was rejected.

In a session that goes on after faults, rejected requests can therefore be left out. All the other
steps are the same steps then, with the renderers they meet and leave (`steps_kept`).
-/

namespace TraceTables

/-- Whether a fault says that an event was rejected. -/
def Fault.isRejection : Fault → Bool
  | .decode _ | .unexpectedEvent .. => true
  | _ => false

/-- An event that has no plan is rejected. -/
theorem Plan.isRejection_of_ofEvent {options : Options} {progress : Progress} {event : Event}
    {fault : Fault} (failed : ofEvent options progress event = .error fault) :
    fault.isRejection = true := by
  have offends := (ofEvent_eq_error_iff event fault).1 failed
  cases event <;> cases inside : progress.state.isInside <;>
    simp [Event.offence?, inside] at offends <;> rw [← offends] <;> rfl

namespace Renderer

variable {σ : Type} [Sink σ]

/-- A plan fails by the sink that is written to, and by nothing else. -/
theorem perform_error {plan : List Action} {renderer : Renderer σ} {fault : Fault}
    (failed : (renderer.perform plan).1 = .error fault) : ∃ cause, fault = .device cause := by
  induction plan generalizing renderer with
  | nil => cases failed
  | cons action plan ih =>
    cases action with
    | reach progress => exact ih failed
    | discard name => exact ih failed
    | write text =>
      rw [perform] at failed
      split at failed
      · exact ih failed
      · cases failed
        exact ⟨_, rfl⟩

theorem flush_error {renderer : Renderer σ} {fault : Fault}
    (failed : renderer.flush.1 = .error fault) : ∃ cause, fault = .device cause := by
  rw [flush] at failed
  split at failed
  · cases failed
  · cases failed
    exact ⟨_, rfl⟩

/-- A request fails because its event is rejected, or by a device. -/
theorem serve_error {request : Request} {renderer : Renderer σ} {fault : Fault}
    (failed : (renderer.serve request).1 = .error fault) :
    (fault.isRejection = true ∧ (renderer.serve request).2 = renderer) ∨
      ∃ cause, fault = .device cause := by
  cases request with
  | flush => exact .inr (flush_error failed)
  | handle event =>
    rw [serve, handle] at failed ⊢
    cases planned : Plan.ofEvent renderer.options renderer.progress event with
    | ok plan =>
      rw [planned] at failed
      exact .inr (perform_error failed)
    | error found =>
      rw [planned] at failed
      cases failed
      exact .inl ⟨Plan.isRejection_of_ofEvent planned, rfl⟩

namespace Step

/-- Whether the request was rejected. -/
def isRejected (step : Step σ) : Bool :=
  match step.answer with
  | .ok () => false
  | .error fault => fault.isRejection

end Step

/-- A rejected step leaves no trace in the renderer. -/
theorem after_of_isRejected {request : Request} {renderer : Renderer σ}
    (rejected : (renderer.step request).isRejected = true) :
    (renderer.serve request).2 = renderer := by
  rw [Step.isRejected, step_answer] at rejected
  split at rejected
  · cases rejected
  · rename_i fault answered
    obtain ⟨-, unchanged⟩ | ⟨cause, rfl⟩ := serve_error answered
    · exact unchanged
    · cases rejected

theorem answer_of_not_isRejected {request : Request} {renderer : Renderer σ}
    (kept : ¬ (renderer.step request).isRejected = true) :
    (renderer.step request).answer = .ok () ∨
      ∃ cause, (renderer.step request).answer = .error (.device cause) := by
  rw [Step.isRejected] at kept
  split at kept
  · exact .inl ‹_›
  · rename_i fault answered
    obtain ⟨rejection, -⟩ | ⟨cause, rfl⟩ := serve_error answered
    · exact absurd rejection kept
    · exact .inr ⟨cause, answered⟩

/-- The steps of a session that are not rejected. -/
def keptSteps (requests : List Request) (renderer : Renderer σ) : List (Step σ) :=
  (renderer.steps requests).filter (!·.isRejected)

/-- The requests of a session without those that are rejected. -/
def keptRequests (requests : List Request) (renderer : Renderer σ) : List Request :=
  (renderer.keptSteps requests).map Step.request

section Kept

variable {request : Request} {renderer : Renderer σ} (more : List Request)

theorem keptSteps_of_isRejected (rejected : (renderer.step request).isRejected = true) :
    renderer.keptSteps (request :: more) = renderer.keptSteps more := by
  rw [keptSteps, keptSteps, steps, List.filter_cons_of_neg (by simpa using rejected),
    after_of_isRejected rejected]

theorem keptSteps_of_not_isRejected (kept : ¬ (renderer.step request).isRejected = true) :
    renderer.keptSteps (request :: more) =
      renderer.step request :: (renderer.serve request).2.keptSteps more := by
  rw [keptSteps, keptSteps, steps, List.filter_cons_of_pos (by simpa using kept)]

end Kept

/-- Every step of a session is that of some renderer. -/
theorem eq_step_of_mem_steps {requests : List Request} {renderer : Renderer σ} {step : Step σ}
    (member : step ∈ renderer.steps requests) :
    step = step.before.step step.request := by
  induction requests generalizing renderer with
  | nil => cases member
  | cons request more ih =>
    rcases List.mem_cons.1 member with rfl | later
    · rfl
    · exact ih later

/-- Without the rejected requests, a session has the same steps but for theirs, and leaves the
same renderer. -/
theorem steps_kept (requests : List Request) (renderer : Renderer σ) :
    renderer.steps (renderer.keptRequests requests) = renderer.keptSteps requests ∧
      renderer.serveAll (renderer.keptRequests requests) = renderer.serveAll requests := by
  induction requests generalizing renderer with
  | nil => exact ⟨rfl, rfl⟩
  | cons request more ih =>
    by_cases rejected : (renderer.step request).isRejected
    · rw [keptRequests, keptSteps_of_isRejected more rejected, serveAll,
        after_of_isRejected rejected]
      exact ih renderer
    · rw [keptRequests, keptSteps_of_not_isRejected more rejected]
      obtain ⟨same, last⟩ := ih (renderer.serve request).2
      exact ⟨congrArg (renderer.step request :: ·) same, last⟩

/-- A step that is rejected writes nothing and changes nothing, whatever the sink does; any other
is handled, or fails by a device. Without the requests that are rejected, a session has all its
other steps, each with the same answer and between the same renderers, and it finishes the same. -/
theorem session_without_rejected (options : Options) (out : σ) (requests : List Request) :
    let start := Renderer.new options out
    (∀ step ∈ start.steps requests, step.isRejected = true → step.after = step.before) ∧
      (∀ step ∈ start.keptSteps requests,
        step.answer = .ok () ∨ ∃ cause, step.answer = .error (.device cause)) ∧
      start.steps (start.keptRequests requests) = start.keptSteps requests ∧
      (start.serveAll (start.keptRequests requests)).finish =
        (start.serveAll requests).finish := by
  intro start
  obtain ⟨same, last⟩ := steps_kept requests start
  refine ⟨?_, ?_, same, congrArg finish last⟩
  · intro step member rejected
    rw [eq_step_of_mem_steps member] at rejected ⊢
    exact after_of_isRejected rejected
  · intro step member
    obtain ⟨member, kept⟩ := List.mem_filter.1 member
    rw [eq_step_of_mem_steps member] at kept ⊢
    exact answer_of_not_isRejected (by simpa using kept)

/-- A session over a buffer with room for seven octets whose flushes fail. Four events are rejected:
one before the first table, one in a row, a nested table, and one behind the cell that is cut. -/
theorem session_without_rejected_cut_cell :
    let start := Renderer.new ⟨",", .all, false⟩ (Buffer.mk .empty (some 7) true)
    let requests : List Request := [.handle .rowEnd, .handle (.tableBegin .basic "A"),
      .handle (.cellValue (.uint64 1)), .handle (.error "lost"), .handle (.tableBegin .basic "B"),
      .flush, .handle (.cellValue (.uint64 23)), .handle (.error "cut"), .handle .tableEnd]
    let cut := (start.serveAll (requests.take 7)).step (.handle (.error "cut"))
    cut ∈ start.steps requests ∧ cut.isRejected = true ∧ cut.after = cut.before ∧
      start.steps [.handle (.tableBegin .basic "A"), .handle (.cellValue (.uint64 1)), .flush,
        .handle (.cellValue (.uint64 23)), .handle .tableEnd] = start.keptSteps requests ∧
      (start.keptSteps requests).map Step.answer = [.ok (), .ok (), .error (.device .flushFailed),
        .error (.device .limitReached), .ok ()] ∧
      (start.serveAll requests).finish.1 = .error (.device .flushFailed) ∧
      (start.serveAll requests).out.written = "\"A\"\n1,2".toUTF8 := by
  intro start requests cut
  obtain ⟨unchanged, -, same, -⟩ :=
    session_without_rejected ⟨",", .all, false⟩ (Buffer.mk .empty (some 7) true) requests
  have member : cut ∈ start.steps requests := List.mem_of_getElem? (i := 7) rfl
  exact ⟨member, rfl, unchanged cut member rfl, same, by cbv, by cbv, by cbv⟩

end Renderer

end TraceTables
