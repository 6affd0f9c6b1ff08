import PluginSurface.Proofs.Optional.CallScopes
import PluginSurface.Proofs.Optional.Masking

/-!
# Calling a function with a mask

A host passes a value for every parameter and the mask. All of them are bound
before the guards run.
-/

namespace PluginSurface

open Environment Eval Interpreter Masking

section

variable {mask : UInt64} {params : List Param} {values : List Value}

/-- What the parameters of a function with a mask are bound to. -/
def maskedBindings (mask : UInt64) (span : Span) (params : List Param)
    (values : List Value) : Bindings :=
  bindingsOf (params.map withoutInitializer ++ [maskParam span])
    (values ++ [.int mask.toInt64])

theorem maskedBindings_eq (span : Span)
    (count : values.length = params.length) :
    maskedBindings mask span params values =
      bindingsOf params values ++ [(maskParameter, .int mask.toInt64)] := by
  unfold maskedBindings bindingsOf
  rw [List.map_append, List.map_map, List.zip_append (by simp [count])]
  rfl

theorem names_maskedBindings (span : Span)
    (count : values.length = params.length) :
    (maskedBindings mask span params values).map Prod.fst =
      (params.map fun param => param.name.text) ++ [maskParameter] := by
  rw [maskedBindings_eq span count, List.map_append, bindingsOf,
    List.map_fst_zip (by simp [count])]
  rfl

/-- Each parameter holds what was passed for it. -/
theorem holds_maskedBindings (span : Span)
    (count : values.length = params.length)
    (distinct : (params.map fun param => param.name.text).Nodup)
    (unreserved : ∀ param ∈ params, param.name.text ≠ maskParameter) :
    Holds ((maskParameter, .int mask.toInt64) :: bindingsOf params values)
      (bindAll [] (maskedBindings mask span params values)) := by
  intro entry member
  refine holds_bindAll ?_ [] entry ?_
  · rw [names_maskedBindings span count, List.nodup_append]
    refine ⟨distinct, by simp, ?_⟩
    intro name among other isMask
    obtain ⟨param, known, rfl⟩ := List.mem_map.mp among
    rw [List.mem_singleton.mp isMask]
    exact unreserved param known
  · rw [maskedBindings_eq span count]
    rcases List.mem_cons.mp member with rfl | among
    · exact List.mem_append_right _ List.mem_cons_self
    · exact List.mem_append_left _ among

/-- From an empty scope the parameters of a function with a mask are bound. -/
theorem endsIn_bindParams_guarded (run : Interpreter) (function : FunctionDecl)
    (body : Block) (ids : List StmtId)
    (count : values.length = function.params.length) :
    EndsIn
      (bindAll [] (maskedBindings mask function.span function.params values))
      (bindParams run (guarded function body ids)
        (guarded function body ids).params
        ((values ++ [Value.int mask.toInt64]).map some)) :=
  endsIn_bindParams run _ (by simp [count])

theorem takesMask_guarded (function : FunctionDecl) (body : Block)
    (ids : List StmtId) :
    Machine.takesMask (guarded function body ids) = true := by
  simp [Machine.takesMask, guarded, maskParam]

end

theorem callWithMask_of_found {program : Program} {name : String}
    {function : FunctionDecl} (found : program.callee? name = some function)
    (takes : Machine.takesMask function = true) (machine : Machine)
    (arguments : List Value) (mask : UInt64) :
    machine.callWithMask program name arguments mask =
      machine.run fun bound => do
        let result ← (interpreter program bound).invoke function none
          ((arguments ++ [Value.int mask.toInt64]).map some)
        return result.1 := by
  simp only [Machine.callWithMask, lookUp, found]
  change machine.run (fun bound => if Machine.takesMask function = true then _
    else _) = _
  simp only [takes, if_true]

end PluginSurface
