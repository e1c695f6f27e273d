import HeaderRename.Rename.Builtin
import Mathlib.Data.List.Basic

/-!
# Names under the renames of a table

A name passes through the renames of its style in the order in which the table has them. It ends as
it was, if none of them takes it, or as the new name of one of them. Every table is one that is
accepted.
-/
set_option autoImplicit false

namespace HeaderRename

/-- What becomes of the name in a directive of this style. -/
def Rename.nameAfter (rename : Rename) (bracket : Bracket) (name : String) : String :=
  if rename.styles.has bracket = true ∧ name = rename.old then rename.new else name

def Rename.Takes (rename : Rename) (bracket : Bracket) (name : String) : Prop :=
  rename.styles.has bracket = true ∧ name = rename.old

theorem Rename.nameAfter_of_takes {rename : Rename} {bracket : Bracket} {name : String}
    (h : rename.Takes bracket name) : rename.nameAfter bracket name = rename.new :=
  if_pos h

theorem Rename.nameAfter_of_not_takes {rename : Rename} {bracket : Bracket} {name : String}
    (h : ¬ rename.Takes bracket name) : rename.nameAfter bracket name = name :=
  if_neg h

theorem Rename.isValid_nameAfter (rename : Rename) (bracket : Bracket) (name : String)
    (hNew : HeaderName.isValid rename.new = true) (hName : HeaderName.isValid name = true) :
    HeaderName.isValid (rename.nameAfter bracket name) = true := by
  unfold Rename.nameAfter
  split
  · exact hNew
  · exact hName

namespace Table

theorem ofRenames?_eq_ok (table : Table) :
    ofRenames? table.name table.description table.renames = .ok table := by
  have hFault := (fault?_eq_none_iff [] table.renames).mpr
    ⟨table.valid, table.nodup, fun _ _ => List.not_mem_nil⟩
  unfold ofRenames?
  split
  · rename_i fault h
    rw [hFault] at h
    cases h
  · rfl

/-- What becomes of a name that passes through the renames of its style in order. -/
def nameAfter (table : Table) (bracket : Bracket) (name : String) : String :=
  table.renames.foldl (fun name rename => rename.nameAfter bracket name) name

theorem isValid_nameAfter (table : Table) (bracket : Bracket) (name : String)
    (hName : HeaderName.isValid name = true) :
    HeaderName.isValid (table.nameAfter bracket name) = true := by
  have hValid := table.valid
  unfold nameAfter
  generalize table.renames = renames at hValid
  induction renames generalizing name with
  | nil => exact hName
  | cons rename rest ih =>
    exact ih _ (rename.isValid_nameAfter bracket name (hValid rename List.mem_cons_self).2 hName)
      fun r hr => hValid r (List.mem_cons_of_mem rename hr)

theorem nameAfter_cases (table : Table) (bracket : Bracket) (name : String) :
    (table.nameAfter bracket name = name ∧ ∀ r ∈ table.renames, ¬ r.Takes bracket name) ∨
      ∃ r ∈ table.renames, table.nameAfter bracket name = r.new := by
  unfold nameAfter
  generalize table.renames = renames
  induction renames generalizing name with
  | nil => exact Or.inl ⟨rfl, fun r hr => absurd hr List.not_mem_nil⟩
  | cons rename rest ih =>
    rw [List.foldl_cons]
    by_cases hTakes : rename.Takes bracket name
    · rw [Rename.nameAfter_of_takes hTakes]
      rcases ih rename.new with ⟨hSame, _⟩ | ⟨r, hr, hNew⟩
      · exact Or.inr ⟨rename, List.mem_cons_self, hSame⟩
      · exact Or.inr ⟨r, List.mem_cons_of_mem rename hr, hNew⟩
    · rw [Rename.nameAfter_of_not_takes hTakes]
      rcases ih name with ⟨hSame, hNone⟩ | ⟨r, hr, hNew⟩
      · exact Or.inl ⟨hSame, List.forall_mem_cons.mpr ⟨hTakes, hNone⟩⟩
      · exact Or.inr ⟨r, List.mem_cons_of_mem rename hr, hNew⟩

theorem nameAfter_of_forall_not_takes (table : Table) (bracket : Bracket) (name : String)
    (h : ∀ r ∈ table.renames, ¬ r.Takes bracket name) : table.nameAfter bracket name = name := by
  unfold nameAfter
  generalize table.renames = renames at h
  induction renames with
  | nil => rfl
  | cons rename rest ih =>
    rw [List.foldl_cons, Rename.nameAfter_of_not_takes (h rename List.mem_cons_self)]
    exact ih fun r hr => h r (List.mem_cons_of_mem rename hr)

end Table

end HeaderRename
