import RuleService.Proofs.Sparing

namespace RuleService.Snippet

theorem stmtsSpare_iff {names : List String} {body : List Stmt} :
    stmtsSpare names body = true ↔ ∀ st ∈ body, st.spares names = true := by
  induction body with
  | nil => simp [stmtsSpare]
  | cons st rest ih => simp [stmtsSpare, ih]

theorem dropPure_spares {names : List String} (needed : Bool) {body : List Stmt}
    (spare : stmtsSpare names body = true) : stmtsSpare names (dropPure needed body) = true :=
  stmtsSpare_iff.mpr fun st kept => stmtsSpare_iff.mp spare st (mem_of_mem_dropPure kept)

mutual

theorem Stmt.simplify_spares {names : List String} (needed : Bool) (st : Stmt)
    (spares : st.spares names = true) : (st.simplify needed).spares names = true := by
  cases st with
  | block body => exact dropPure_spares needed (simplifyAll_spares needed body spares)
  | branch c yes no =>
    simp only [Stmt.spares, Bool.and_eq_true] at spares
    simp only [Stmt.simplify, Stmt.spares, Bool.and_eq_true]
    exact ⟨⟨spares.1.1, dropPure_spares needed (simplifyAll_spares needed yes spares.1.2)⟩,
      dropPure_spares needed (simplifyAll_spares needed no spares.2)⟩
  | loopWhile c body =>
    simp only [Stmt.spares, Bool.and_eq_true] at spares
    simp only [Stmt.simplify, Stmt.spares, Bool.and_eq_true]
    exact ⟨spares.1, dropPure_spares false (simplifyAll_spares false body spares.2)⟩
  | loopAfter body going c =>
    simp only [Stmt.spares, Bool.and_eq_true] at spares
    simp only [Stmt.simplify, Stmt.spares, Bool.and_eq_true]
    exact ⟨dropPure_spares false (simplifyAll_spares false body spares.1), spares.2⟩
  | loopOver name counter source body =>
    simp only [Stmt.spares, Bool.and_eq_true] at spares
    simp only [Stmt.simplify, Stmt.spares, Bool.and_eq_true]
    exact ⟨spares.1, dropPure_spares false (simplifyAll_spares false body spares.2)⟩
  | attempt body name handler =>
    simp only [Stmt.spares, Bool.and_eq_true] at spares
    simp only [Stmt.simplify, Stmt.spares, Bool.and_eq_true]
    exact ⟨dropPure_spares false (simplifyAll_spares false body spares.1),
      dropPure_spares false (simplifyAll_spares false handler spares.2)⟩
  | _ => exact spares

theorem simplifyAll_spares {names : List String} (needed : Bool) (body : List Stmt)
    (spare : stmtsSpare names body = true) : stmtsSpare names (simplifyAll needed body) = true := by
  cases body with
  | nil => rfl
  | cons st rest =>
    rw [stmtsSpare, Bool.and_eq_true] at spare
    rw [simplifyAll, stmtsSpare, Bool.and_eq_true]
    exact ⟨st.simplify_spares needed spare.1, simplifyAll_spares needed rest spare.2⟩

end

theorem simplify_spares {names : List String} (program : Program)
    (spare : stmtsSpare names program.body = true) :
    stmtsSpare names program.simplify.body = true :=
  dropPure_spares true (simplifyAll_spares true program.body spare)

/-- What a script leaves declared. -/
def Program.declares (program : Program) : List String := program.body.flatMap Stmt.declares

theorem mem_simplifyAll {needed : Bool} {body : List Stmt} {st : Stmt}
    (member : st ∈ simplifyAll needed body) : ∃ old ∈ body, st = old.simplify needed := by
  induction body with
  | nil => cases member
  | cons first rest ih =>
    rw [simplifyAll, List.mem_cons] at member
    rcases member with rfl | later
    · exact ⟨first, List.mem_cons_self, rfl⟩
    · obtain ⟨old, inRest, eq⟩ := ih later
      exact ⟨old, List.mem_cons_of_mem _ inRest, eq⟩

theorem Stmt.simplify_declares (needed : Bool) (st : Stmt) :
    (st.simplify needed).declares = st.declares := by
  cases st <;> rfl

theorem simplify_declares (program : Program) : program.simplify.declares ⊆ program.declares := by
  intro name member
  obtain ⟨st, kept, declared⟩ := List.mem_flatMap.mp member
  obtain ⟨old, inBody, rfl⟩ := mem_simplifyAll (mem_of_mem_dropPure kept)
  rw [Stmt.simplify_declares] at declared
  exact List.mem_flatMap.mpr ⟨old, inBody, declared⟩

end RuleService.Snippet
