import EntityTables.Proofs.Schema.Session

/-!
# Resolvers have no history

A resolver may be asked for single tables and for all tables, any number of times and in any order.
What it keeps from earlier requests makes later ones faster and changes no answer, and a request that
fails leaves nothing behind: whatever was asked before, no declaration is being resolved when a
request has been answered.
-/

namespace EntityTables.Schema

/-- What a resolver may be asked for: the table of a declaration, or all tables of its unit. -/
inductive Request
  | table (key : Key)
  | all

/-- An answer: the tables asked for, or the first error. -/
abbrev Answer := Except Error (List Table)

/-- Answers a request. -/
def Request.answer (resolver : Resolver) : Request → Resolving Session (List Table)
  | .table key => do return [← resolveTable resolver key]
  | .all => resolveAll resolver

/-- Answers requests one after the other. -/
def serve (resolver : Resolver) : List Request → Session → List Answer × Session
  | [], session => ([], session)
  | request :: rest, session =>
    let (answer, session) := (request.answer resolver).run session
    let (answers, session) := serve resolver rest session
    (answer :: answers, session)

/-- The answer of a resolver that was not asked before. -/
def Request.freshAnswer (resolver : Resolver) (request : Request) : Answer :=
  ((request.answer resolver).run .empty).1

variable {resolver : Resolver}

/-- The answer to a request by rebuilding. -/
def Request.rebuilt (resolver : Resolver) : Request → Answer
  | .table key => do return [← rebuild resolver [] key]
  | .all => resolver.unit.tables.mapM fun declaration => rebuild resolver [] declaration.key

theorem tracks_answer (request : Request) :
    Tracks resolver id [] (request.answer resolver) (request.rebuilt resolver) fun _ => False := by
  cases request with
  | table key =>
      exact ((tracks_resolveTable resolver [] key).bind fun table _ => Tracks.pure [table]).mono
        fun _ _ _ h => h.elim
  | all => exact (tracks_resolveAll resolver []).mono fun _ _ _ h => h.elim

theorem freshAnswer_eq_rebuilt (request : Request) :
    request.freshAnswer resolver = request.rebuilt resolver := by
  obtain ⟨after, hrun, -⟩ := tracks_answer request .empty rfl (Session.sound_empty resolver)
  rw [Request.freshAnswer, hrun]

/-- What a sound session answers, and that it stays sound. -/
theorem serve_of_sound (requests : List Request) {session : Session} (hstack : session.stack = [])
    (hsound : session.Sound resolver) :
    (serve resolver requests session).1 = requests.map (Request.freshAnswer resolver) ∧
      (serve resolver requests session).2.stack = [] := by
  induction requests generalizing session with
  | nil => exact ⟨rfl, hstack⟩
  | cons request rest ih =>
      obtain ⟨after, hrun, hback, hafter, -⟩ := tracks_answer request session hstack hsound
      obtain ⟨hanswers, hend⟩ := @ih after hback hafter
      simp only [serve, hrun, List.map_cons, freshAnswer_eq_rebuilt]
      exact ⟨by rw [hanswers], hend⟩

theorem slot?_ne_inProgress {session : Session} (hstack : session.stack = []) (key : Key) :
    session.slot? key ≠ some .inProgress := by
  intro hslot
  have hmem := (session.inProgress_iff key).mp hslot
  rw [hstack] at hmem
  exact List.not_mem_nil hmem

/-- **Resolvers have no history.** After any requests, answered or failed, nothing is being resolved,
and every request got the answer that a fresh resolver gives. -/
theorem serve_empty_eq_fresh (resolver : Resolver) (requests : List Request) :
    let (answers, session) := serve resolver requests .empty
    answers = requests.map (Request.freshAnswer resolver) ∧ session.stack = [] ∧
      ∀ key, session.slot? key ≠ some .inProgress := by
  obtain ⟨hanswers, hstack⟩ := serve_of_sound requests rfl (Session.sound_empty resolver)
  exact ⟨hanswers, hstack, slot?_ne_inProgress hstack⟩

end EntityTables.Schema
