import Mathlib
import BoundedPrintf.Proofs.Rendering.Visits

/-! What `%n` directives store. A count is the length of the output of what stands in front of its
directive, and a target that no processed directive is given keeps its value. -/
namespace BoundedPrintf

/-- The argument that a directive is given as its value. -/
def Spec.supply (spec : Spec) (cursor : Cursor) : Argument.Supply := (spec.resolve cursor).2.next.1

/-- The target that a visited `%n` directive is given. -/
def Visit.target? (visit : Visit) : Option Nat :=
  match visit.segment with
  | .directive spec =>
      if spec.conversion = octet 'n' then (spec.supply visit.before.cursor).target? else none
  | .literal _ | .percent | .unsupported _ | .incomplete => none

/-- The store that a visit makes. -/
def Visit.store? (visit : Visit) : Option Store :=
  visit.target?.map fun target => ⟨target, visit.before.count⟩

theorem Cursor.consumed_next {cursor : Cursor} {arg : Argument}
    (given : cursor.next.1 = some arg) : cursor.next.2.consumed = cursor.consumed + 1 := by
  obtain ⟨_ | ⟨head, rest⟩, consumed⟩ := cursor
  · cases given
  · rfl

namespace Spec

variable {spec : Spec} {supply : Argument.Supply}

theorem conversion_resolve (spec : Spec) (cursor : Cursor) :
    (spec.resolve cursor).1.conversion = spec.conversion := by
  by_cases width : spec.width = .argument <;> by_cases precision : spec.precision = .argument <;>
    simp [resolve, width, precision, withWidth, withPrecision]

theorem effect_of_count [Build] (count : spec.conversion = octet 'n') :
    spec.effect supply = (supply.target?.map Effect.store).getD .nothing := by
  have letter : Char.ofUInt8 (octet 'n') = 'n' := rfl
  simp only [effect, count, letter]
  cases supply.target? <;> rfl

theorem effect_ne_store [Build] (other : spec.conversion ≠ octet 'n') (target : Nat) :
    spec.effect supply ≠ .store target := by
  have letter : Char.ofUInt8 spec.conversion ≠ 'n' := by
    intro same
    exact other (same ▸ octet_ofUInt8 spec.conversion).symm
  unfold effect
  split
  case h_16 same => exact absurd same letter
  case h_7 | h_8 | h_9 | h_10 | h_11 | h_12 =>
    cases Field.float (.ofBits supply.double) spec <;> nofun
  all_goals nofun

end Spec

namespace Rendering

variable [Build] {rendering : Rendering} {mode : Mode}

/-- A `%n` directive takes its arguments and stores the count into its target, if it is given one. -/
theorem segment_count {spec : Spec} (count : spec.conversion = octet 'n') :
    rendering.segment mode (.directive spec) =
      ({ rendering with
          cursor := (spec.resolve rendering.cursor).2.next.2
          stores := rendering.stores ++ ((spec.supply rendering.cursor).target?.map fun target =>
            ⟨target, rendering.count⟩).toList }, .more) := by
  have conversion := (spec.conversion_resolve rendering.cursor).trans count
  simp only [Rendering.segment, directive, Spec.effect_of_count conversion, Spec.supply]
  cases (spec.resolve rendering.cursor).2.next.1.target? with
  | none => simp [apply]
  | some target => rfl

theorem segment_stores (rendering : Rendering) (mode : Mode) (offset : Nat) (segment : Segment) :
    (rendering.segment mode segment).1.stores =
      rendering.stores ++ (Visit.mk offset segment rendering).store?.toList := by
  rw [Visit.store?]
  cases segment with
  | literal | percent =>
      rw [Rendering.segment, wrote_eq]
      simp [Visit.target?]
  | unsupported | incomplete => simp [Rendering.segment, Visit.target?]
  | directive spec =>
      by_cases count : spec.conversion = octet 'n'
      · simp only [segment_count count, Visit.target?, count, if_true]
      · have other := mt (spec.conversion_resolve rendering.cursor).symm.trans count
        have none : (Visit.mk offset (.directive spec) rendering).target? = none := by
          simp only [Visit.target?, count, if_false]
        rw [none, Rendering.segment, directive]
        cases effect : (spec.resolve rendering.cursor).1.effect
            (spec.resolve rendering.cursor).2.next.1 with
        | store target => exact absurd effect (Spec.effect_ne_store other target)
        | emit chunks => simp [effect, apply, wrote_eq]
        | nothing | crash => simp [effect, apply]

theorem run_stores (rendering : Rendering) (mode : Mode) (offset : Nat) (pieces : List Piece) :
    (rendering.run mode offset pieces).1.stores =
      rendering.stores ++ (rendering.visits mode offset pieces).filterMap Visit.store? := by
  apply run_history fun seen later => later.stores = rendering.stores ++ seen.filterMap Visit.store?
  · intro seen later offset segment _ stored
    have added : [Visit.mk offset segment later].filterMap Visit.store? =
        (Visit.mk offset segment later).store?.toList := by
      rw [List.filterMap_cons]
      cases (Visit.mk offset segment later).store? <;> rfl
    rw [segment_stores later mode offset segment, stored, List.filterMap_append, added,
      List.append_assoc]
  · rw [List.filterMap_nil, List.append_nil]

end Rendering

namespace Outcome

variable {outcome : Outcome} {before : List Int} {target : Nat}

theorem foldl_set_untouched {stores : List Store}
    (untouched : ∀ store ∈ stores, store.target ≠ target) (values : List Int) :
    (stores.foldl (fun values store => values.set store.target store.count) values)[target]? =
      values[target]? := by
  induction stores generalizing values with
  | nil => rfl
  | cons store rest ih =>
      obtain ⟨other, others⟩ := List.forall_mem_cons.mp untouched
      rw [List.foldl_cons, ih others, List.getElem?_set_ne other]

theorem length_foldl_set (stores : List Store) (values : List Int) :
    (stores.foldl (fun values store => values.set store.target store.count) values).length =
      values.length := by
  induction stores generalizing values with
  | nil => rfl
  | cons store rest ih => rw [List.foldl_cons, ih, List.length_set]

/-- A target into which nothing is stored keeps its value. -/
theorem mem_of_mem_foldl_set {stores : List Store} {values : List Int} {value : Int}
    (member : value ∈
      stores.foldl (fun values store => values.set store.target store.count) values) :
    value ∈ values ∨ ∃ store ∈ stores, value = store.count := by
  induction stores generalizing values with
  | nil => exact .inl member
  | cons store rest ih =>
      rcases ih member with kept | ⟨later, stored, same⟩
      · rcases List.mem_or_eq_of_mem_set kept with old | new
        · exact .inl old
        · exact .inr ⟨store, List.mem_cons_self, new⟩
      · exact .inr ⟨later, List.mem_cons_of_mem _ stored, same⟩

theorem counts_of_untouched (untouched : ∀ store ∈ outcome.stores, store.target ≠ target) :
    (outcome.counts before)[target]? = before[target]? :=
  foldl_set_untouched untouched before

/-- A target holds what was last stored into it. -/
theorem counts_of_last {front back : List Store} {store : Store}
    (split : outcome.stores = front ++ store :: back)
    (last : ∀ later ∈ back, later.target ≠ store.target) (inside : store.target < before.length) :
    (outcome.counts before)[store.target]? = some ↑store.count := by
  rw [counts, split, List.foldl_append, List.foldl_cons, foldl_set_untouched last,
    List.getElem?_set_self (by rwa [length_foldl_set])]

end Outcome

section Calls

variable [Build]

/-- What the `%n` directives of a call do, by its outcome and its course. -/
structure CountsOutput (buffer : Array UInt8) (template : Bytes) (args : List Argument)
    (mode : Mode) (outcome : Outcome) (visits : List Visit) : Prop where
  course : VisitsWhereRoom buffer template args mode visits
  /-- A directive with a target stores the length of the output of what stands in front of its
  percent sign. -/
  stores : ∀ visit ∈ visits, ∀ target, visit.target? = some target →
    template[visit.offset]? = some (octet '%') ∧
      ∃ written, (render buffer (template.take visit.offset) args mode).result = .ok written ∧
        written < buffer.size - 1 ∧ visit.store? = some ⟨target, min written maxCount⟩
  /-- Nothing else is stored. -/
  only : outcome.stores = visits.filterMap Visit.store?
  ordered : outcome.stores.Pairwise fun earlier later => earlier.count ≤ later.count
  within : ∀ store ∈ outcome.stores, store.count ≤ (emitted buffer template args mode).length
  /-- The last store into a target counts. -/
  last : ∀ (front back : List Visit) (visit : Visit) (store : Store) (before : List Int),
    visits = front ++ visit :: back → visit.store? = some store →
      (∀ later ∈ back, later.target? ≠ some store.target) → store.target < before.length →
        (outcome.counts before)[store.target]? = some ↑store.count
  /-- A target that no processed directive is given keeps its value. -/
  untouched : ∀ (before : List Int) (target : Nat),
    (∀ visit ∈ visits, visit.target? ≠ some target) →
      (outcome.counts before)[target]? = before[target]?
  /-- An argument that is no target is taken all the same. -/
  otherwise : ∀ visit ∈ visits, ∀ (spec : Spec) (arg : Argument),
    visit.segment = .directive spec → spec.conversion = octet 'n' →
      spec.supply visit.before.cursor = some arg → visit.target? = none →
        let stars := (spec.resolve visit.before.cursor).2
        visit.before.segment mode visit.segment =
            ({ visit.before with cursor := stars.next.2 }, .more) ∧
          stars.next.2.consumed = stars.consumed + 1

variable {buffer : Array UInt8} {nonempty : 0 < buffer.size} {template : Bytes}
  {args : List Argument} {mode : Mode} {visit : Visit}

theorem stores_render_eq_visits (nonempty : 0 < buffer.size) (template : Bytes)
    (args : List Argument) (mode : Mode) : (render buffer template args mode).stores =
      (visitsOfCall buffer nonempty template args mode).filterMap Visit.store? := by
  rw [stores_render nonempty, Rendering.ofCall, Rendering.run_stores]
  rfl

omit [Build] in
theorem Visit.store?_eq_some {store : Store} (stored : visit.store? = some store) :
    visit.target? = some store.target ∧ store.count = visit.before.count := by
  obtain ⟨target, given, rfl⟩ := Option.map_eq_some_iff.mp stored
  exact ⟨given, rfl⟩

/-- No count is too large for its target. -/
theorem count_le_of_mem_stores {store : Store}
    (stored : store ∈ (render buffer template args mode).stores) : store.count ≤ maxCount := by
  rcases Nat.eq_zero_or_pos buffer.size with empty | nonempty
  · have none : buffer = #[] := Array.eq_empty_of_size_eq_zero empty
    simp [render, none, Sink.ofBuffer?] at stored
  · rw [stores_render_eq_visits nonempty] at stored
    obtain ⟨visit, -, found⟩ := List.mem_filterMap.mp stored
    rw [(Visit.store?_eq_some found).2]
    exact Nat.min_le_right _ _

omit [Build] in
/-- Stores into a target come from visits that are given it. -/
theorem Visit.exists_of_mem_stores {visits : List Visit} {store : Store}
    (member : store ∈ visits.filterMap Visit.store?) :
    ∃ visit ∈ visits, visit.target? = some store.target ∧ store.count = visit.before.count := by
  obtain ⟨visit, visited, stored⟩ := List.mem_filterMap.mp member
  exact ⟨visit, visited, Visit.store?_eq_some stored⟩

/-- A visit with a target is to a directive, and its place is that of the percent sign. -/
theorem percent_of_target (member : visit ∈ visitsOfCall buffer nonempty template args mode)
    {target : Nat} (given : visit.target? = some target) :
    template[visit.offset]? = some (octet '%') := by
  obtain ⟨front, back, split⟩ := List.append_of_mem member
  obtain ⟨passed, next, rest, cut, offset, segment, _⟩ := visitsOfCall_split split
  cases reads : visit.segment with
  | directive spec =>
      have directive : next.segment = (Directive.spec spec).toSegment := segment.symm.trans reads
      rw [offset]
      exact (Template.directive_behind cut directive nofun).1
  | literal | percent | unsupported | incomplete => simp [Visit.target?, reads] at given

/-- A count is the length of the output of what stands in front of its directive, as a call of that
part alone answers it. -/
theorem counts_tell_output (nonempty : 0 < buffer.size) (template : Bytes) (args : List Argument)
    (mode : Mode) :
    CountsOutput buffer template args mode (render buffer template args mode)
      (visitsOfCall buffer nonempty template args mode) := by
  have stores := stores_render_eq_visits nonempty template args mode
  obtain ⟨grow, front⟩ := outputs_of_call nonempty template args mode
  have count_le : ∀ visit : Visit, visit.before.count ≤ visit.before.sink.written :=
    fun visit => Nat.min_le_left _ _
  constructor
  case course => exact visitsOfCall_whereRoom nonempty template args mode
  case stores =>
    intro visit member target given
    obtain ⟨answered, spare, written⟩ := render_before_visit member
    refine ⟨percent_of_target member given, _, answered, spare, ?_⟩
    rw [Visit.store?, given, ← written]
    rfl
  case only => exact stores
  case ordered =>
    rw [stores, List.pairwise_filterMap]
    refine grow.imp ?_
    intro earlier later grows first firstStored second secondStored
    have written := grows.length_le
    rw [Sink.length_output, Sink.length_output] at written
    rw [(Visit.store?_eq_some firstStored).2, (Visit.store?_eq_some secondStored).2]
    simp only [Rendering.count]
    omega
  case within =>
    intro store member
    rw [stores] at member
    obtain ⟨visit, visited, _, count⟩ := Visit.exists_of_mem_stores member
    have written := (front visit visited).length_le
    rw [Sink.length_output] at written
    exact count ▸ (count_le visit).trans written
  case last =>
    intro front back visit store before split stored later inside
    rw [split, List.filterMap_append, List.filterMap_cons, stored] at stores
    refine Outcome.counts_of_last stores ?_ inside
    intro behind member same
    obtain ⟨other, visited, given, _⟩ := Visit.exists_of_mem_stores member
    exact later other visited (same ▸ given)
  case untouched =>
    intro before target never
    apply Outcome.counts_of_untouched
    intro store member same
    rw [stores] at member
    obtain ⟨visit, visited, given, _⟩ := Visit.exists_of_mem_stores member
    exact never visit visited (same ▸ given)
  case otherwise =>
    intro visit _ spec arg directive count given noTarget
    have none : (spec.supply visit.before.cursor).target? = none := by
      simpa only [Visit.target?, directive, count, if_true] using noTarget
    constructor
    · rw [directive, Rendering.segment_count count, none, Option.map_none, Option.toList_none,
        List.append_nil]
    · exact Cursor.consumed_next given

end Calls

/-- The last directive stands right behind the byte that fills the buffer. -/
theorem count_behind_full_buffer :
    let _ : Build := .checked
    let outcome := render (Array.replicate 6 0xAA) (ascii "ab%n%n%s%n")
      [.int 7, .count 0, .text (ascii "xyz"), .count 1] .compat
    outcome.counts [-1, -1] = [2, -1] ∧ outcome.consumed = 3 := by
  intro _
  have tells := counts_tell_output (by decide : 0 < (Array.replicate 6 (0xAA : UInt8)).size)
    (ascii "ab%n%n%s%n") [.int 7, .count 0, .text (ascii "xyz"), .count 1] .compat
  have stores := tells.only
  have made : (visitsOfCall (Array.replicate 6 0xAA) (by decide) (ascii "ab%n%n%s%n")
      [.int 7, .count 0, .text (ascii "xyz"), .count 1] .compat).filterMap Visit.store? =
        [⟨0, 2⟩] := by
    cbv
  rw [made] at stores
  refine ⟨?_, by cbv⟩
  simp only [Outcome.counts, stores]
  rfl

end BoundedPrintf
