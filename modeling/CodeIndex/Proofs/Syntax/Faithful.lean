import CodeIndex.Proofs.Json.RoundTrip
import CodeIndex.Proofs.Syntax.Dump
import CodeIndex.Syntax.Concrete
import CodeIndex.Syntax.Thin

/-!
# CodeIndex.Proofs.Syntax.Faithful

The compact text of a tree is that of its data by recursion, and the tree can be read back from it.

* `Concrete.data_eq`, `Thin.data_eq`: the data that is written is the data by recursion.
* `Concrete.exact_toValue`, `Thin.exact_toValue`: no key stands twice in an object of it.
* `compactText_faithful`: the texts, what they are read as, and that different trees have different ones.
-/

namespace CodeIndex

theorem Point.exact_toValue (p : Point) : p.toValue.Exact := by
  refine .obj (by simp) ?_
  simp only [List.forall_mem_cons, List.not_mem_nil, false_implies, implies_true, and_true]
  exact ⟨.int _, .int _⟩

namespace Concrete

theorem toValues_eq_map (cs : List Concrete) : toValues cs = cs.map toValue := by
  induction cs with
  | nil => rfl
  | cons c cs ih => rw [toValues, ih, List.map_cons]

theorem recursive_toValue : model.Recursive toValue := by
  rintro ⟨kind, text, start, stop, children⟩
  rw [toValue, toValues_eq_map]
  rfl

theorem data_eq (c : Concrete) : c.data = c.toValue := Dump.data_eq recursive_toValue c

mutual

theorem exact_toValue (c : Concrete) : c.toValue.Exact := by
  obtain ⟨kind, text, start, stop, children⟩ := c
  rw [toValue]
  refine .obj (by simp) ?_
  simp only [List.forall_mem_cons, List.not_mem_nil, false_implies, implies_true, and_true]
  exact ⟨.str _, .str _, start.exact_toValue, stop.exact_toValue, .arr (exact_toValues children)⟩

theorem exact_toValues (cs : List Concrete) : ∀ v ∈ toValues cs, v.Exact := by
  cases cs with
  | nil => simp [toValues]
  | cons c cs =>
    rw [toValues, List.forall_mem_cons]
    exact ⟨exact_toValue c, exact_toValues cs⟩

end

theorem compactText_eq (c : Concrete) : c.compactText = Json.compact c.toValue := by
  rw [compactText, data_eq]

theorem read?_compactText (c : Concrete) : Json.read? c.compactText = some c.toValue := by
  rw [compactText_eq, Json.read?_compact c.exact_toValue]

end Concrete

namespace Thin

theorem toValues_eq_map (ts : List Thin) : toValues ts = ts.map toValue := by
  induction ts with
  | nil => rfl
  | cons t ts ih => rw [toValues, ih, List.map_cons]

theorem recursive_toValue : model.Recursive toValue := by
  rintro ⟨kind, name, start, stop, children⟩
  cases children with
  | none => simp [toValue, toValues?, field, model, fields, children?]
  | some ts => simp [toValue, toValues?, field, model, fields, children?, toValues_eq_map]

theorem data_eq (t : Thin) : t.data = t.toValue := Dump.data_eq recursive_toValue t

theorem exact_field {key : String} {v : Option Value} (h : ∀ w ∈ v, w.Exact) :
    ∀ f ∈ field key v, f.2.Exact := by
  cases v with
  | none => simp [field]
  | some w => simpa [field] using h

mutual

theorem exact_toValue (t : Thin) : t.toValue.Exact := by
  obtain ⟨kind, name, start, stop, children⟩ := t
  have hname : ∀ w ∈ name.map Value.str, w.Exact := by
    cases name with
    | none => simp
    | some s => simpa using Value.Exact.str s
  have hkeys : ((([("type", .str kind)] ++ field "name" (name.map .str) ++
      [("start", start.toValue), ("end", stop.toValue)] ++
      field "children" (toValues? children)) : List (String × Value)).map Prod.fst).Nodup := by
    cases name <;> cases children <;> simp [field, toValues?]
  rw [toValue]
  refine .obj hkeys ?_
  simp only [List.forall_mem_append, List.forall_mem_cons, List.not_mem_nil, false_implies,
    implies_true, and_true]
  exact ⟨⟨⟨.str _, exact_field hname⟩, start.exact_toValue, stop.exact_toValue⟩,
    exact_field (exact_toValues? children)⟩

theorem exact_toValues? (ts : Option (List Thin)) : ∀ w ∈ toValues? ts, w.Exact := by
  cases ts with
  | none => simp [toValues?]
  | some ts =>
    intro w hw
    rw [toValues?, Option.mem_some_iff] at hw
    subst hw
    exact .arr (exact_toValues ts)

theorem exact_toValues (ts : List Thin) : ∀ v ∈ toValues ts, v.Exact := by
  cases ts with
  | nil => simp [toValues]
  | cons t ts =>
    rw [toValues, List.forall_mem_cons]
    exact ⟨exact_toValue t, exact_toValues ts⟩

end

theorem compactText_some (t : Thin) : compactText (some t) = Json.compact t.toValue := by
  rw [compactText, valueOf, data_eq]

theorem read?_compactText_some (t : Thin) :
    Json.read? (compactText (some t)) = some t.toValue := by
  rw [compactText_some, Json.read?_compact t.exact_toValue]

/-- The text of a dropped tree is that of no tree. -/
theorem read?_compactText_none : Json.read? (compactText none) = some .null :=
  Json.read?_compact .null

/-- A concrete node has a text where a thin one has a name or its start. -/
theorem toValue_ne (t : Thin) (c : Concrete) : c.toValue ≠ t.toValue := by
  obtain ⟨kind, text, start, stop, children⟩ := c
  obtain ⟨kind', name, start', stop', children'⟩ := t
  cases name <;> simp [Concrete.toValue, toValue, field]

end Thin

/-- The text of a tree is the recursive compact text of its data, and the tree is read back from it. A
text comes from one tree at most, of either kind. -/
theorem compactText_faithful (c : Concrete) (t : Thin) :
    c.compactText = String.ofList (Json.text .compact c.toValue) ∧
      Thin.compactText (some t) = String.ofList (Json.text .compact t.toValue) ∧
      (Json.read? c.compactText).bind Concrete.ofValue? = some c ∧
      (Json.read? (Thin.compactText (some t))).bind Thin.ofValue? = some t ∧
      (∀ c' : Concrete, c'.compactText = c.compactText → c' = c) ∧
      (∀ t' : Option Thin, Thin.compactText t' = Thin.compactText (some t) → t' = some t) ∧
      c.compactText ≠ Thin.compactText (some t) := by
  have hc : ∀ c : Concrete, (Json.read? c.compactText).bind Concrete.ofValue? = some c := by
    intro c
    rw [c.read?_compactText, Option.bind_some, Concrete.ofValue?_toValue]
  have ht : ∀ t : Thin, (Json.read? (Thin.compactText (some t))).bind Thin.ofValue? = some t := by
    intro t
    rw [t.read?_compactText_some, Option.bind_some, Thin.ofValue?_toValue]
  refine ⟨?_, ?_, hc c, ht t, ?_, ?_, ?_⟩
  · rw [c.compactText_eq, Json.compact_eq]
  · rw [t.compactText_some, Json.compact_eq]
  · intro c' he
    have hr := hc c'
    rw [he, hc c] at hr
    exact (Option.some.inj hr).symm
  · intro t' he
    cases t' with
    | none =>
      have hr := Thin.read?_compactText_none
      rw [he, t.read?_compactText_some] at hr
      cases t
      simp [Thin.toValue] at hr
    | some t' =>
      have hr := ht t'
      rw [he, ht t] at hr
      exact hr.symm
  · intro he
    have hr := c.read?_compactText
    rw [he, t.read?_compactText_some] at hr
    exact t.toValue_ne c (Option.some.inj hr).symm

end CodeIndex
