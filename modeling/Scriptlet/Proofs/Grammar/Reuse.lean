/-
# A session forgets what was before

A session may be used for any number of sources, and a parse may break off anywhere and leave
a lookahead and a cursor behind.  Nevertheless a parse in a session that was used before is the
same as one in a new session: it gives the same result and leaves the same session, so that no later
question tells the two apart.  All that a session keeps from one parse to the next is the name of
its sources, and no call changes that.
-/
import Scriptlet.Error.Report
import Scriptlet.Proofs.Grammar.Coherence

namespace Scriptlet

open Reading

/-! ## Questions and answers -/

/-- What a call gives if it succeeds. -/
def Call.Result : Call → Type
  | parse _ => Program
  | request (.expect _) => Token
  | request (.rule r) => r.Result

/-- What a call does. -/
def Call.run : (call : Call) → Reading call.Result
  | parse source => Reading.parse source
  | request (.expect kind) => Reading.expect kind
  | request (.rule r) => r.run

/-- What can be asked of a session, and how it is told from another one. -/
inductive Question where
  | call (call : Call)
  /-- To show its source, its lookahead and its position. -/
  | look
  /-- To report an error, as found in its source. -/
  | report (e : Error)

/-- The answer to a question. -/
inductive Answer where
  | result (call : Call) (result : Except Error call.Result)
  | shown (source : String) (lookahead : Option Token) (position : Position)
  | report (text : Option String)

namespace Question

/-- What a session answers. -/
def answer (s : Session) : Question → Answer
  | call c => .result c (c.run.runOn s).1
  | look => .shown s.source s.lookahead s.position
  | report e => .report (e.report? s.source)

/-- The session that a question leaves. -/
def leaves (s : Session) : Question → Session
  | call c => (c.run.runOn s).2
  | look | report _ => s

end Question

/-- The answers of a session to questions that are asked one after the other. -/
def Session.answers (s : Session) : List Question → List Answer
  | [] => []
  | question :: questions => question.answer s :: (question.leaves s).answers questions

/-! ## What is kept -/

lemma Session.file_after (file : Option String) (calls : List Call) :
    ((start file).after calls).file = (start file).file :=
  ((coherent_start file).after calls).file_eq

namespace Reading

variable {s s' : Session}

/-- A source is loaded in the same way into all sessions of one name. -/
lemma load_eq_of_file_eq (source : String) (h : s.file = s'.file) :
    load source s = load source s' := by
  rw [load, load, h]

lemma parse_eq_of_file_eq (source : String) (h : s.file = s'.file) :
    (Reading.parse source).runOn s = (Reading.parse source).runOn s' := by
  have hparse : Reading.parse source s = Reading.parse source s' := by
    rw [Reading.parse]
    simp only [bind, EStateM.bind, load_eq_of_file_eq source h]
  rw [runOn, runOn, hparse]

end Reading

/-- **A session can be used again.**  Whatever was asked of a session before, a parse gives the
result of a parse in a new session, which is that of parsing the source by itself, and leaves the
same session.  So all answers to questions that follow are the same, the reports of errors among
them. -/
theorem used_session_as_new (file : Option String) (calls : List Call) (source : String) :
    let used := (Reading.parse source).runOn ((Session.start file).after calls)
    let new := (Reading.parse source).runOn (Session.start file)
    used.1 = new.1 ∧ new.1 = parse source file ∧ used.2.source = new.2.source ∧
      used.2.lookahead = new.2.lookahead ∧ used.2.cursor = new.2.cursor ∧
      used.2.file = new.2.file ∧ ∀ later, used.2.answers later = new.2.answers later := by
  intro used new
  have heq : used = new := parse_eq_of_file_eq source (Session.file_after file calls)
  rw [heq]
  exact ⟨rfl, rfl, rfl, rfl, rfl, rfl, fun _ => rfl⟩

end Scriptlet
