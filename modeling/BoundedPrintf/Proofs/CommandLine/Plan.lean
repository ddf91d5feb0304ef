import BoundedPrintf.CommandLine.Plan
import BoundedPrintf.Proofs.FileTree.Writing

/-! Plans whose files can be written are carried out to the end. The exit code then tells how the plan
ends, and a file holds what the plan wrote to its place last. -/
namespace BoundedPrintf.CommandLine.Plan

/-- All files can be written, each after those before it. -/
def Writable (tree : FileTree) : List Step → Prop
  | [] => True
  | .print _ :: rest | .tell _ :: rest => Writable tree rest
  | .write path text :: rest =>
      ∃ next, tree.write path (Text.utf8 text) = .ok next ∧ Writable next rest

instance decidableWritable : (tree : FileTree) → (steps : List Step) → Decidable (Writable tree steps)
  | _, [] => isTrue trivial
  | tree, .print _ :: rest | tree, .tell _ :: rest => decidableWritable tree rest
  | tree, .write path text :: rest =>
      match wrote : tree.write path (Text.utf8 text) with
      | .error _ => isFalse fun ⟨_, written, _⟩ => nomatch wrote.symm.trans written
      | .ok next =>
          have := decidableWritable next rest
          decidable_of_iff (Writable next rest) ⟨fun later => ⟨next, wrote, later⟩,
            fun ⟨_, written, later⟩ => Except.ok.inj (wrote.symm.trans written) ▸ later⟩

/-- No step writes to the place of a path. -/
def Spares (tree : FileTree) (path : String) (steps : List Step) : Prop :=
  ∀ other text, .write other text ∈ steps → tree.place path ≠ tree.place other

variable {tree next : FileTree} {steps front behind : List Step} {effects : Effects} {finish : Finish}
  {path text : String} {contents : Bytes}

theorem code_finish {other : Effects} (same : other.code = effects.code) :
    (other.finish finish).code = (effects.finish finish).code := by
  cases finish with
  | success => exact same
  | failure | crash => rfl

theorem code_runSteps (writable : Writable effects.tree steps) :
    (runSteps effects finish steps).code = (effects.finish finish).code := by
  induction steps generalizing effects with
  | nil => rfl
  | cons step steps ih =>
      cases step with
      | print text | tell text =>
          refine (ih ?_).trans (code_finish rfl)
          exact writable
      | write path text =>
          obtain ⟨next, wrote, writable⟩ := writable
          rw [runSteps, wrote]
          exact (ih writable).trans (code_finish rfl)

theorem code_run {plan : Plan} (writable : Writable tree plan.steps) :
    (plan.run tree).code = (({ tree } : Effects).finish plan.finish).code :=
  code_runSteps writable

theorem tree_finish : (effects.finish finish).tree = effects.tree := by cases finish <;> rfl

theorem Spares.of_write {other : String} {bytes : Bytes} (wrote : tree.write other bytes = .ok next)
    (spares : Spares tree path steps) : Spares next path steps := by
  intro another text member
  rw [FileTree.place_of_write wrote, FileTree.place_of_write wrote]
  exact spares another text member

/-- A file keeps its contents while nothing is written to its place. -/
theorem read_runSteps (writable : Writable effects.tree steps) (spares : Spares effects.tree path steps)
    (held : effects.tree.read path = .ok contents) :
    (runSteps effects finish steps).tree.read path = .ok contents := by
  induction steps generalizing effects with
  | nil => rw [runSteps, tree_finish, held]
  | cons step steps ih =>
      have later : Spares effects.tree path steps := fun other text member =>
        spares other text (List.mem_cons_of_mem _ member)
      cases step with
      | print text | tell text => exact ih writable later held
      | write other text =>
          obtain ⟨next, wrote, writable⟩ := writable
          have apart := spares other text List.mem_cons_self
          rw [runSteps, wrote]
          exact ih writable (later.of_write wrote) (FileTree.read_of_write_other wrote apart held)

theorem read_runSteps_of_write
    (writable : Writable effects.tree (front ++ .write path text :: behind))
    (spares : Spares effects.tree path behind) :
    (runSteps effects finish (front ++ .write path text :: behind)).tree.read path =
      .ok (Text.utf8 text) := by
  induction front generalizing effects with
  | nil =>
      obtain ⟨next, wrote, writable⟩ := writable
      rw [List.nil_append, runSteps, wrote]
      exact read_runSteps writable (spares.of_write wrote) (FileTree.read_of_write wrote)
  | cons step front ih =>
      cases step with
      | print text | tell text => exact ih writable spares
      | write other text =>
          obtain ⟨next, wrote, writable⟩ := writable
          rw [List.cons_append, runSteps, wrote]
          exact ih writable (spares.of_write wrote)

end BoundedPrintf.CommandLine.Plan
