import Mathlib.Data.List.Induction
import Mathlib.Logic.Function.Basic
import Mathlib.Tactic.Common
import Landmark.Proofs.Registry

/-!
# What the calls of a registry bind

A registry starts empty and is changed by its four calls. What it binds after any of them can be
told from the calls alone (`lookup_leftBy`): registering and unregistering touch their identifier,
and the built-in operators take the free places whenever they are asked to join or an identifier is
looked up in vain. So an identifier is resolved to what was last registered under it and not
unregistered since, or else to the built-in operator of that name (`run_calls`).
-/

namespace Landmark

namespace Registry

/-- A call of a registry. -/
inductive Call
  | register (identifier : String) (operator : Operator)
  | unregister (identifier : String)
  | ensureBuiltins
  | resolve (identifier : String)

/-- The built-in operator of a name. -/
def builtin? (identifier : String) : Option Operator :=
  if identifier = "Add" then some .add
  else if identifier = "Lea" then some .lea
  else none

namespace Call

/-- The registry that a call leaves. -/
def left : Call → Registry → Registry
  | .register identifier operator, registry =>
    ((Registry.register identifier operator).run registry).2
  | .unregister identifier, registry => ((Registry.unregister identifier).run registry).2
  | .ensureBuiltins, registry => (Registry.ensureBuiltins.run registry).2
  | .resolve identifier, registry => ((Registry.resolve identifier).run registry).2

/-- The identifier that a call registers or unregisters. -/
def own? : Call → Option String
  | .register identifier _ => some identifier
  | .unregister identifier => some identifier
  | _ => none

/-- What a call makes of the bindings that it meets. -/
def rebind : Call → (String → Option Operator) → String → Option Operator
  | .register identifier operator, bound => Function.update bound identifier (some operator)
  | .unregister identifier, bound => Function.update bound identifier none
  | .ensureBuiltins, bound => fun wanted => (bound wanted).or (builtin? wanted)
  | .resolve identifier, bound =>
    if (bound identifier).isSome then bound else fun wanted => (bound wanted).or (builtin? wanted)

end Call

/-- The registry that calls leave of an empty one. -/
def leftBy (calls : List Call) : Registry :=
  calls.foldl (fun registry call => call.left registry) {}

/-- The bindings after some calls, nothing being bound before them. -/
def bindings (calls : List Call) : String → Option Operator :=
  calls.foldl (fun bound call => call.rebind bound) fun _ => none

/-- The last call that registered or unregistered an identifier registered this operator. -/
def LastRegistered (calls : List Call) (identifier : String) (operator : Operator) : Prop :=
  ∃ before after, calls = before ++ .register identifier operator :: after
    ∧ ∀ call ∈ after, call.own? ≠ some identifier

/-! ## The bindings of a registry -/

theorem lookup_builtins (identifier : String) :
    Operator.builtins.lookup identifier = builtin? identifier := by
  rw [Operator.builtins, lookup_cons, lookup_cons, List.lookup_nil, builtin?]

theorem lookup_erase (registry : Registry) (identifier wanted : String) :
    (registry.erase identifier).lookup wanted
      = if wanted = identifier then none else registry.lookup wanted := by
  have hfilter := lookup_filter (fun name => decide (name ≠ identifier)) wanted registry.entries
  rw [lookup, erase, hfilter]
  by_cases hwanted : wanted = identifier <;> simp [hwanted, lookup]

/-- A call changes the bindings of a registry as it changes any bindings. -/
theorem lookup_left (call : Call) (registry : Registry) :
    (call.left registry).lookup = call.rebind registry.lookup := by
  funext wanted
  cases call with
  | register identifier operator =>
    change (registry.insert identifier operator).lookup wanted = _
    rw [lookup_insert, Call.rebind, Function.update_apply]
  | unregister identifier =>
    change (registry.erase identifier).lookup wanted = _
    rw [lookup_erase, Call.rebind, Function.update_apply]
  | ensureBuiltins =>
    change registry.withBuiltins.lookup wanted = _
    rw [lookup_withBuiltins, lookup_builtins, Call.rebind]
  | resolve identifier =>
    have hjoined : registry.withBuiltins.lookup wanted
        = (registry.lookup wanted).or (builtin? wanted) := by
      rw [lookup_withBuiltins, lookup_builtins]
    rw [Call.left, run_resolve, Call.rebind]
    cases registry.lookup identifier with
    | some operator => rfl
    | none => cases registry.withBuiltins.lookup identifier <;> exact hjoined

/-- A registry binds after some calls what can be told from the calls. -/
theorem lookup_leftBy (calls : List Call) : (leftBy calls).lookup = bindings calls := by
  have hrun : ∀ (calls : List Call) (registry : Registry),
      (calls.foldl (fun registry call => call.left registry) registry).lookup
        = calls.foldl (fun bound call => call.rebind bound) registry.lookup := by
    intro calls
    induction calls with
    | nil => exact fun _ => rfl
    | cons call calls ih =>
      intro registry
      rw [List.foldl_cons, List.foldl_cons, ih, lookup_left]
  exact hrun calls {}

theorem length_missingBuiltins (registry : Registry) : registry.missingBuiltins.length
    = (["Add", "Lea"].filter fun identifier => (registry.lookup identifier).isNone).length := by
  have hnames : ["Add", "Lea"] = Operator.builtins.map Prod.fst := rfl
  rw [hnames, List.filter_map, List.length_map, missingBuiltins]
  refine congrArg List.length (congrArg (List.filter · _) (funext fun entry => ?_))
  rw [isRegistered, Option.not_isSome, Function.comp_apply]

/-! ## Who registered an operator -/

theorem bindings_append (calls : List Call) (call : Call) :
    bindings (calls ++ [call]) = call.rebind (bindings calls) := by
  rw [bindings, List.foldl_append]
  rfl

theorem rebind_of_not_own {call : Call} (bound : String → Option Operator) {identifier : String}
    (h : call.own? ≠ some identifier) :
    call.rebind bound identifier = bound identifier
      ∨ bound identifier = none ∧ call.rebind bound identifier = builtin? identifier := by
  cases call with
  | register other operator | unregister other =>
    have hne : identifier ≠ other := fun heq => h (heq ▸ rfl)
    exact .inl (Function.update_of_ne hne _ _)
  | ensureBuiltins =>
    change (bound identifier).or _ = _ ∨ _ ∧ (bound identifier).or _ = _
    cases bound identifier with
    | some operator => exact .inl rfl
    | none => exact .inr ⟨rfl, rfl⟩
  | resolve other =>
    rw [Call.rebind]
    split_ifs
    · exact .inl rfl
    · dsimp only
      cases bound identifier with
      | some operator => exact .inl rfl
      | none => exact .inr ⟨rfl, rfl⟩

/-- Nothing but its own calls displaces an operator that was registered. -/
theorem bindings_of_lastRegistered {calls : List Call} {identifier : String} {operator : Operator}
    (h : LastRegistered calls identifier operator) : bindings calls identifier = some operator := by
  obtain ⟨before, after, rfl, hafter⟩ := h
  induction after using List.reverseRecOn with
  | nil =>
    rw [bindings_append, Call.rebind, Function.update_self]
  | append_singleton after call ih =>
    have hbound := ih fun other hother => hafter other (List.mem_append_left _ hother)
    have hcall := hafter call (List.mem_append_right _ List.mem_cons_self)
    rw [← List.cons_append, ← List.append_assoc, bindings_append]
    obtain hsame | ⟨hnone, -⟩ := rebind_of_not_own (bindings _) hcall
    · rw [hsame, hbound]
    · rw [hbound] at hnone
      cases hnone

/-- What is bound was registered or is a built-in operator. -/
theorem lastRegistered_or_builtin {identifier : String} {operator : Operator} :
    ∀ {calls : List Call}, bindings calls identifier = some operator →
      LastRegistered calls identifier operator ∨ builtin? identifier = some operator := by
  intro calls
  induction calls using List.reverseRecOn with
  | nil => exact fun h => nomatch h
  | append_singleton calls call ih =>
    intro h
    rw [bindings_append] at h
    by_cases hown : call.own? = some identifier
    · cases call with
      | register other operator' =>
        cases hown
        rw [Call.rebind, Function.update_self] at h
        cases h
        exact .inl ⟨calls, [], rfl, by simp⟩
      | unregister other =>
        cases hown
        rw [Call.rebind, Function.update_self] at h
        cases h
      | ensureBuiltins | resolve => cases hown
    · obtain hsame | ⟨-, hbuiltin⟩ := rebind_of_not_own (bindings calls) hown
      · rw [hsame] at h
        obtain ⟨before, after, rfl, hafter⟩ | hbuiltin := ih h
        · refine .inl ⟨before, after ++ [call], by simp, fun other hother => ?_⟩
          obtain hother | hother := List.mem_append.1 hother
          · exact hafter other hother
          · rwa [List.mem_singleton.1 hother]
        · exact .inr hbuiltin
      · rw [hbuiltin] at h
        exact .inr h

/-! ## The order of the identifiers -/

theorem mem_identifiers_iff (registry : Registry) (identifier : String) :
    identifier ∈ registry.identifiers ↔ (registry.lookup identifier).isSome := by
  rw [identifiers, lookup, List.lookup_isSome_iff, List.mem_map]
  exact exists_congr fun entry => and_congr_right' (by rw [beq_iff_eq, eq_comm])

theorem mem_map_fst_bind {identifier : String} {operator : Operator} {name : String} :
    ∀ {entries : List (String × Operator)},
      name ∈ (bind identifier operator entries).map Prod.fst →
        name = identifier ∨ name ∈ entries.map Prod.fst
  | [], h => .inl (List.mem_singleton.1 h)
  | entry :: entries, h => by
    rw [bind] at h
    split_ifs at h with hsame hless
    · obtain h | h := List.mem_cons.1 h
      · exact .inl h
      · exact .inr (List.mem_cons_of_mem _ h)
    · exact List.mem_cons.1 h
    · obtain h | h := List.mem_cons.1 h
      · exact .inr (h ▸ List.mem_cons_self)
      · exact (mem_map_fst_bind h).imp_right (List.mem_cons_of_mem _)

theorem pairwise_bind (identifier : String) (operator : Operator) :
    ∀ {entries : List (String × Operator)}, (entries.map Prod.fst).Pairwise (· < ·) →
      ((bind identifier operator entries).map Prod.fst).Pairwise (· < ·)
  | [], _ => List.pairwise_singleton _ _
  | entry :: entries, h => by
    have hcons := h
    rw [List.map_cons, List.pairwise_cons] at hcons
    rw [bind]
    split_ifs with hsame hless
    · rw [List.map_cons, hsame]
      exact h
    · rw [List.map_cons, List.pairwise_cons]
      refine ⟨fun name hname => ?_, h⟩
      obtain rfl | hname := List.mem_cons.1 hname
      · exact hless
      · exact String.lt_trans hless (hcons.1 name hname)
    · rw [List.map_cons, List.pairwise_cons]
      refine ⟨fun name hname => ?_, pairwise_bind identifier operator hcons.2⟩
      obtain rfl | hname := mem_map_fst_bind hname
      · exact Decidable.not_not.1 fun hle =>
          hsame (String.le_antisymm (String.not_lt.1 hle) (String.not_lt.1 hless))
      · exact hcons.1 name hname

theorem pairwise_withBuiltins {registry : Registry} (h : registry.identifiers.Pairwise (· < ·)) :
    registry.withBuiltins.identifiers.Pairwise (· < ·) := by
  rw [withBuiltins]
  generalize registry.missingBuiltins = entries
  induction entries generalizing registry with
  | nil => exact h
  | cons entry entries ih => exact ih (pairwise_bind entry.1 entry.2 h)

theorem pairwise_left (call : Call) {registry : Registry}
    (h : registry.identifiers.Pairwise (· < ·)) :
    (call.left registry).identifiers.Pairwise (· < ·) := by
  cases call with
  | register identifier operator => exact pairwise_bind identifier operator h
  | unregister identifier => exact List.Pairwise.sublist (List.filter_sublist.map Prod.fst) h
  | ensureBuiltins => exact pairwise_withBuiltins h
  | resolve identifier =>
    rw [Call.left]
    obtain hsame | hjoined := run_resolve_registry identifier registry
    · rwa [hsame]
    · rw [hjoined]
      exact pairwise_withBuiltins h

theorem pairwise_leftBy (calls : List Call) : (leftBy calls).identifiers.Pairwise (· < ·) := by
  induction calls using List.reverseRecOn with
  | nil => exact List.Pairwise.nil
  | append_singleton calls call ih =>
    rw [leftBy, List.foldl_append]
    exact pairwise_left call ih

/-- After any calls of an empty registry, an identifier is resolved to the operator that was last
registered under it and not unregistered since, or else to the built-in one, or else it is unknown;
resolving a bound identifier leaves the registry as it is. Registering tells what was bound at that
moment. Asking the built-in operators to join tells how many of them were not bound, and none when
it is repeated. The identifiers are those that are bound, in strictly ascending order. -/
theorem run_calls (calls : List Call) :
    let registry := leftBy calls
    let bound := bindings calls
    (∀ identifier,
      (∀ operator, LastRegistered calls identifier operator →
        ((resolve identifier).run registry).1 = .ok operator ∧ bound identifier = some operator)
      ∧ ((¬ ∃ operator, LastRegistered calls identifier operator) →
        ((resolve identifier).run registry).1
          = (builtin? identifier).elim (.error (.unknownOperator identifier)) .ok)
      ∧ ((bound identifier).isSome → ((resolve identifier).run registry).2 = registry)
      ∧ (∀ operator, ((register identifier operator).run registry).1 = bound identifier)
      ∧ registry.lookup identifier = bound identifier
      ∧ (identifier ∈ registry.identifiers ↔ (bound identifier).isSome))
    ∧ (ensureBuiltins.run registry).1
      = (["Add", "Lea"].filter fun identifier => (bound identifier).isNone).length
    ∧ (ensureBuiltins.run (ensureBuiltins.run registry).2).1 = 0
    ∧ registry.identifiers.Pairwise (· < ·) := by
  intro registry bound
  have hlookup : registry.lookup = bound := lookup_leftBy calls
  have hresolve (identifier : String) : ((resolve identifier).run registry).1
      = ((bound identifier).or (builtin? identifier)).elim
        (.error (.unknownOperator identifier)) .ok := by
    rw [(run_resolve_spec identifier registry).1, lookup_withBuiltins, hlookup, lookup_builtins]
  refine ⟨fun identifier => ⟨fun operator h => ?_, fun h => ?_, fun h => ?_, fun operator => ?_, ?_,
    ?_⟩, ?_, ?_, pairwise_leftBy calls⟩
  · have hbound := bindings_of_lastRegistered h
    exact ⟨by rw [hresolve, show bound identifier = _ from hbound]; rfl, hbound⟩
  · rw [hresolve]
    cases hbound : bound identifier with
    | none => rfl
    | some operator =>
      obtain hlast | hbuiltin := lastRegistered_or_builtin hbound
      · exact absurd ⟨operator, hlast⟩ h
      · rw [hbuiltin]
        rfl
  · obtain ⟨operator, hbound⟩ := Option.isSome_iff_exists.1 h
    rw [run_resolve, hlookup, hbound]
  · exact congrFun hlookup identifier
  · exact congrFun hlookup identifier
  · rw [mem_identifiers_iff, hlookup]
  · rw [← hlookup]
    exact length_missingBuiltins registry
  · change registry.withBuiltins.missingBuiltins.length = 0
    rw [missingBuiltins_withBuiltins, List.length_nil]

/-- A built-in operator that was displaced and then unregistered comes back when another identifier
is looked up in vain. -/
theorem run_calls_back :
    let calls : List Call := [.register "Add" .lea, .unregister "Add", .resolve "Sub"]
    (¬ ∃ operator, LastRegistered calls "Add" operator)
      ∧ ((resolve "Add").run (leftBy calls)).1 = .ok .add
      ∧ ((register "Add" .lea).run (leftBy calls)).1 = some .add
      ∧ "Add" ∈ (leftBy calls).identifiers := by
  intro calls
  obtain ⟨-, hresolve, -, hregister, -, hmem⟩ := (run_calls calls).1 "Add"
  have hunregistered : ¬ ∃ operator, LastRegistered calls "Add" operator := by
    rintro ⟨operator, before, after, hcalls, hafter⟩
    rcases before with _ | ⟨first, _ | ⟨second, _ | ⟨third, before⟩⟩⟩ <;>
      simp only [calls, List.nil_append, List.cons_append, List.cons.injEq, reduceCtorEq, false_and,
        and_false, List.nil_eq, List.append_eq_nil_iff] at hcalls
    obtain ⟨-, rfl⟩ := hcalls
    exact hafter (.unregister "Add") List.mem_cons_self rfl
  exact ⟨hunregistered, hresolve hunregistered, hregister .lea, hmem.2 rfl⟩

end Registry

end Landmark
