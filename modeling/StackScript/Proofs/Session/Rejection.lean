import StackScript.Proofs.Session.Safety

/-!
# Rejected requests

A session answers requests to evaluate or to compile. A request that is only compiled, or whose
source cannot be read, parsed or compiled, leaves no trace: without it all other answers are the same,
and so is the session in the end.
-/

namespace StackScript

namespace Session

/-- What a session can be asked to do. -/
inductive Request where
  | eval (source : String) (steps : Nat)
  | evalText (text : Except ReadError String) (steps : Nat)
  | compile (source : String)

/-- What comes of a request. -/
inductive Answer where
  | evaluated (evaluation : Evaluation)
  | compiled (result : Except Error Bytecode)

/-- Answer a request. -/
def answer (session : Session) : Request → Answer × Session
  | .eval source steps =>
    let (evaluation, session) := session.eval source steps
    (.evaluated evaluation, session)
  | .evalText text steps =>
    let (evaluation, session) := session.evalText text steps
    (.evaluated evaluation, session)
  | .compile source => (.compiled (session.compile source), session)

/-- Answer requests one after the other. -/
def answerAll (session : Session) : List Request → List (Request × Answer) × Session
  | [] => ([], session)
  | request :: requests =>
    let (answer, session) := session.answer request
    let (exchange, session) := session.answerAll requests
    ((request, answer) :: exchange, session)

/-- Nothing has been run: there is only bytecode, or an error from before the run. -/
def Answer.ranNothing : Answer → Bool
  | .compiled _ => true
  | .evaluated evaluation =>
    match evaluation.verdict with
    | .error (.runtime _) => false
    | .error _ => true
    | .value _ | .unfinished => false

theorem not_ranNothing_of_run (run : Run) :
    (Answer.evaluated run.evaluation).ranNothing = false := by
  cases run <;> rfl

/-- A source that is not run leaves the session as it was. -/
theorem eval_of_ranNothing {session : Session} {source : String} {steps : Nat}
    (h : (Answer.evaluated (session.eval source steps).1).ranNothing = true) :
    (session.eval source steps).2 = session := by
  obtain ⟨error, heq, -⟩ | ⟨program, bytecode, assembly, -, -, heq⟩ :=
    session.eval_cases source steps
  · rw [heq]
  · rw [heq, not_ranNothing_of_run] at h
    cases h

/-- A request for which nothing is run leaves the session as it was. -/
theorem answer_of_ranNothing {session : Session} {request : Request}
    (h : (session.answer request).1.ranNothing = true) : (session.answer request).2 = session := by
  cases request with
  | eval source steps => exact eval_of_ranNothing h
  | evalText text steps =>
      cases text with
      | ok source => exact eval_of_ranNothing h
      | error error => rfl
  | compile source => rfl

/-- The requests for which something was run get the same answers without the others, and leave the
same session. -/
theorem answerAll_of_ran (session : Session) (requests : List Request) :
    let (exchange, last) := session.answerAll requests
    let ran := exchange.filter fun entry => !entry.2.ranNothing
    session.answerAll (ran.map Prod.fst) = (ran, last) := by
  induction requests generalizing session with
  | nil => rfl
  | cons request requests ih =>
      have hrest := ih (session.answer request).2
      dsimp only [answerAll] at hrest ⊢
      cases h : (session.answer request).1.ranNothing with
      | true =>
          rw [answer_of_ranNothing h] at hrest ⊢
          simpa [h] using hrest
      | false => simp [h, answerAll, hrest]

end Session

end StackScript
