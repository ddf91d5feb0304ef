import BoundedPrintf.Proofs.Rendering.Answers
import BoundedPrintf.Proofs.Rendering.Counts

/-! Which argument a `%n` directive stores into. It is the argument at the place of its request for a
value, and no place is requested twice. A target that stands at one place among the arguments is
therefore stored into once or not at all. -/
namespace BoundedPrintf

/-- Among the visits, this one is to a `%n` directive whose value is the argument at this place. -/
def Visit.Receives (visits : List Visit) (place : Nat) (visit : Visit) : Prop :=
  ∃ front back spec, visits = front ++ visit :: back ∧ visit.segment = .directive spec ∧
    spec.conversion = octet 'n' ∧ requested front + spec.requests.idxOf .value = place

theorem Spec.supply_after {spec : Spec} {cursor : Cursor} {args : List Argument} {requested : Nat}
    (stands : cursor = Cursor.after args requested) :
    spec.supply cursor = args[requested + spec.requests.idxOf .value]? := by
  rw [Spec.supply, stands, Spec.resolve_after, Cursor.next_after]

section Calls

variable [Build] {buffer : Array UInt8} {nonempty : 0 < buffer.size} {template : Bytes}
  {args : List Argument} {mode : Mode} {front back : List Visit} {visit later : Visit} {spec : Spec}
  {place target : Nat} {address : UInt64} {values : List Int}

theorem cursor_before_visit
    (split : visitsOfCall buffer nonempty template args mode = front ++ visit :: back) :
    visit.before.cursor = Cursor.after args (Visit.requested front) := by
  have initial : (Rendering.start buffer nonempty args).cursor = Cursor.after args 0 := by
    simp [Rendering.start, Cursor.ofList, Cursor.after]
  apply Rendering.history_before
    (fun seen later => later.cursor = Cursor.after args (Visit.requested seen)) _ initial split
  intro seen rendering offset segment _ stands
  exact Rendering.cursor_after_visit stands offset segment

theorem target?_of_count
    (split : visitsOfCall buffer nonempty template args mode = front ++ visit :: back)
    (directive : visit.segment = .directive spec) (count : spec.conversion = octet 'n') :
    visit.target? = Argument.Supply.target?
      args[Visit.requested front + spec.requests.idxOf .value]? := by
  simp only [Visit.target?, directive, count, if_true]
  rw [Spec.supply_after (cursor_before_visit split)]

/-- A visit with a target is given it by an argument, at the place of its request. -/
theorem receives_of_target
    (split : visitsOfCall buffer nonempty template args mode = front ++ visit :: back)
    (given : visit.target? = some target) : ∃ place address,
      Visit.Receives (visitsOfCall buffer nonempty template args mode) place visit ∧
        args[place]? = some (.count target address) ∧ Visit.requested front ≤ place := by
  cases directive : visit.segment with
  | literal | percent | unsupported | incomplete => simp [Visit.target?, directive] at given
  | directive spec =>
      by_cases count : spec.conversion = octet 'n'
      · rw [target?_of_count split directive count] at given
        generalize placed : Visit.requested front + spec.requests.idxOf .value = place at given
        have received : Visit.Receives (visitsOfCall buffer nonempty template args mode) place visit :=
          ⟨front, back, spec, split, directive, count, placed⟩
        have behind : Visit.requested front ≤ place := placed ▸ Nat.le_add_right _ _
        cases supply : args[place]? with
        | none => simp [supply, Argument.Supply.target?] at given
        | some arg =>
            rw [supply] at given
            cases arg with
            | count own address =>
                obtain rfl : own = target := Option.some.inj given
                exact ⟨place, address, received, supply, behind⟩
            | int | uint | double | pointer | text | null => cases given
      · simp [Visit.target?, directive, count] at given

/-- What is emitted in front of a visit stays in front. -/
theorem emitted_before_visit (member : visit ∈ visitsOfCall buffer nonempty template args mode) :
    emitted buffer (template.take visit.offset) args mode <+: emitted buffer template args mode := by
  obtain ⟨front, back, split⟩ := List.append_of_mem member
  obtain ⟨_, _, _, _, _, _, _, _, call⟩ := visitsOfCall_split split
  have grows := (outputs_of_call nonempty template args mode).2 visit member
  rwa [emitted_eq_output nonempty, call]

omit [Build] in
theorem Visit.Receives.mem {visits : List Visit} (received : Receives visits place visit) :
    visit ∈ visits := by
  obtain ⟨front, back, spec, rfl, -⟩ := received
  exact List.mem_append_right _ List.mem_cons_self

theorem Visit.Receives.target? (here : args[place]? = some (.count target address))
    (received : Receives (visitsOfCall buffer nonempty template args mode) place visit) :
    visit.target? = some target := by
  obtain ⟨front, back, spec, split, directive, count, asks⟩ := received
  rw [target?_of_count split directive count, asks, here]
  rfl

section Stored

variable (alone : ∀ other address, args[other]? = some (.count target address) → other = place)
include alone

/-- Visits behind the one that is given a target ask for later arguments. -/
theorem target?_of_later (split : visitsOfCall buffer nonempty template args mode =
      front ++ visit :: back) (directive : visit.segment = .directive spec)
    (asks : Visit.requested front + spec.requests.idxOf .value = place) (member : later ∈ back) :
    later.target? ≠ some target := by
  intro given
  obtain ⟨middle, rest, rfl⟩ := List.append_of_mem member
  have further : visitsOfCall buffer nonempty template args mode =
      (front ++ visit :: middle) ++ later :: rest := by
    rw [split, List.append_assoc, List.cons_append]
  obtain ⟨other, address, -, there, behind⟩ := receives_of_target further given
  have same := alone other address there
  rw [Visit.requested_append, directive, Segment.requests, Spec.length_requests] at behind
  omega

theorem counts_of_received (here : args[place]? = some (.count target address))
    (received : Visit.Receives (visitsOfCall buffer nonempty template args mode) place visit)
    (inside : target < values.length) :
    ((render buffer template args mode).counts values)[target]? =
      some ↑(min (emitted buffer (template.take visit.offset) args mode).length maxCount) := by
  obtain ⟨-, -, written⟩ := render_before_visit received.mem
  have stored : visit.store? = some ⟨target, visit.before.count⟩ := by
    rw [Visit.store?, received.target? here, Option.map_some]
  have stores := stores_render_eq_visits nonempty template args mode
  obtain ⟨front, back, spec, split, directive, -, asks⟩ := received
  rw [split, List.filterMap_append, List.filterMap_cons, stored] at stores
  rw [← written]
  refine Outcome.counts_of_last stores ?_ inside
  intro store again same
  obtain ⟨later, visited, offered, -⟩ := Visit.exists_of_mem_stores again
  exact target?_of_later alone split directive asks visited (offered.trans (congrArg some same))

theorem counts_of_missed
    (missed : ∀ visit, ¬ Visit.Receives (visitsOfCall buffer nonempty template args mode) place visit) :
    ((render buffer template args mode).counts values)[target]? = values[target]? := by
  apply Outcome.counts_of_untouched
  intro store member same
  rw [stores_render_eq_visits nonempty] at member
  obtain ⟨visit, visited, given, -⟩ := Visit.exists_of_mem_stores member
  obtain ⟨front, back, split⟩ := List.append_of_mem visited
  obtain ⟨other, address, received, there, -⟩ :=
    receives_of_target split (given.trans (congrArg some same))
  exact missed visit (alone other address there ▸ received)

end Stored

end Calls

end BoundedPrintf
