import RuleService.Proofs.Interpolation

namespace RuleService

theorem Fields.mem_of_get? {fields : Fields} {key : String} {v : Json}
    (found : Named.get? fields key = some v) : (key, v) ∈ fields := by
  obtain ⟨before, after, rfl, -⟩ := List.lookup_eq_some_iff.mp found
  simp

theorem Fields.mem_of_command? {fields : Fields} {field : String × Json}
    (found : fields.command? = some field) : field ∈ fields :=
  List.mem_of_find?_eq_some found

namespace Json

/-- The values that stand in a value, itself among them. -/
inductive Part (v : Json) : Json → Prop
  | whole : Part v v
  | item {vs : List Json} {w : Json} (outer : Part v (.arr vs)) (member : w ∈ vs) : Part v w
  | field {fields : Fields} {key : String} {w : Json} (outer : Part v (.obj fields))
      (member : (key, w) ∈ fields) : Part v w

theorem sizeOf_item_lt {v : Json} {vs : List Json} (member : v ∈ vs) :
    sizeOf v < sizeOf (Json.arr vs) := by
  have smaller := List.sizeOf_lt_of_mem member
  simp only [Json.arr.sizeOf_spec]
  omega

theorem sizeOf_field_lt {v : Json} {fields : Fields} {key : String} (member : (key, v) ∈ fields) :
    sizeOf v < sizeOf (Json.obj fields) := by
  have smaller := List.sizeOf_lt_of_mem member
  simp only [Prod.mk.sizeOf_spec] at smaller
  simp only [Json.obj.sizeOf_spec]
  omega

/-- What the body of a command holds in a field is smaller than the command. -/
theorem sizeOf_described_lt {fields desc : Fields} {name key : String} {v : Json}
    (found : Fields.command? fields = some (name, .obj desc))
    (held : Named.get? desc key = some v) : sizeOf v < sizeOf (Json.obj fields) :=
  Nat.lt_trans (sizeOf_field_lt (Fields.mem_of_get? held))
    (sizeOf_field_lt (Fields.mem_of_command? found))

/-- What holds of a value whenever it holds of all smaller ones holds of every value. -/
theorem size_induction {P : Json → Prop}
    (step : ∀ v, (∀ w, sizeOf w < sizeOf v → P w) → P v) (v : Json) : P v :=
  (measure sizeOf).wf.induction v step

end Json

end RuleService
