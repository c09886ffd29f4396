import Mathlib.Data.List.Basic

/-! Searches and readings of a list that may raise.

Each ends with the first element that raises. When none does, a search is the
ordinary one, and a reading gives one result for each element.
-/

set_option autoImplicit false

namespace Library

variable {Element Error : Type}

theorem findM?_of_total {test : Element → Except Error Bool} {passes : Element → Bool}
    {elements : List Element} (total : ∀ element ∈ elements, test element = .ok (passes element)) :
    elements.findM? test = .ok (elements.find? passes) := by
  induction elements with
  | nil => rfl
  | cons element rest ih =>
    have later := ih fun other member => total other (List.mem_cons_of_mem element member)
    rw [List.findM?, total element List.mem_cons_self, List.find?_cons]
    change (match passes element with
      | true => Except.ok (some element)
      | false => rest.findM? test) = _
    cases passes element with
    | true => rfl
    | false => exact later

theorem filterAuxM_of_total {test : Element → Except Error Bool} {passes : Element → Bool}
    {elements : List Element} (total : ∀ element ∈ elements, test element = .ok (passes element))
    (kept : List Element) :
    elements.filterAuxM test kept = .ok ((elements.filter passes).reverse ++ kept) := by
  induction elements generalizing kept with
  | nil => rfl
  | cons element rest ih =>
    have later := ih fun other member => total other (List.mem_cons_of_mem element member)
    rw [List.filterAuxM, total element List.mem_cons_self, List.filter_cons]
    change rest.filterAuxM test (bif passes element then element :: kept else kept) = _
    rw [later]
    cases passes element <;> simp

theorem filterM_of_total {test : Element → Except Error Bool} {passes : Element → Bool}
    {elements : List Element} (total : ∀ element ∈ elements, test element = .ok (passes element)) :
    elements.filterM test = .ok (elements.filter passes) := by
  rw [List.filterM, filterAuxM_of_total total]
  change Except.ok _ = _
  rw [List.append_nil, List.reverse_reverse]

section
variable {Result : Type} {read : Element → Except Error Result}

theorem read_of_mem_mapM {elements : List Element} {results : List Result}
    (whole : elements.mapM read = .ok results) :
    ∀ result ∈ results, ∃ element ∈ elements, read element = .ok result := by
  induction elements generalizing results with
  | nil =>
    cases whole
    intro result member
    cases member
  | cons element rest ih =>
    rw [List.mapM_cons] at whole
    cases first : read element with
    | error raised =>
      rw [first] at whole
      cases whole
    | ok head =>
      cases later : rest.mapM read with
      | error raised =>
        rw [first, later] at whole
        cases whole
      | ok tail =>
        rw [first, later] at whole
        cases whole
        intro result member
        rcases List.mem_cons.mp member with same | member
        · rw [same]
          exact ⟨element, List.mem_cons_self, first⟩
        · obtain ⟨other, present, reads⟩ := ih later result member
          exact ⟨other, List.mem_cons_of_mem element present, reads⟩

/-- What is written so that it can be read is read back whole. -/
theorem mapM_map_of_total {write : Result → Element} {results : List Result}
    (back : ∀ result ∈ results, read (write result) = .ok result) :
    (results.map write).mapM read = .ok results := by
  induction results with
  | nil => rfl
  | cons result rest ih =>
    have later := ih fun other member => back other (List.mem_cons_of_mem result member)
    rw [List.map_cons, List.mapM_cons, back result List.mem_cons_self, later]
    rfl

end

end Library
