import Rollout.Naming.Path

/-!
# Proofs/Naming/Path — the node of a joined path

The path of a label under a parent leads from the node of the parent through all labels that the
text of the label is made of (`node_join`).  So it leads to the child of the parent if the text is
one label (`node_join_of_isLabel`).
-/

namespace Rollout.Naming

/-! ## Labels -/

theorem labels_join {parent : String} (label : String) (hparent : parent ≠ "") :
    labels (join parent label) = labels label ++ labels parent := by
  rw [join, if_neg hparent, labels, labels, labels, String.toList_ofList,
    List.splitOn_append_cons_self, List.map_append]

/-- A text is its own only label exactly if it has no delimiter. -/
theorem labels_eq_singleton_iff {label : String} :
    labels label = [label] ↔ delimiter ∉ label.toList := by
  rw [labels]
  constructor
  · intro h hmem
    obtain ⟨before, after, htext⟩ := List.append_of_mem hmem
    have hlength := congrArg List.length h
    rw [htext, List.splitOn_append_cons_self, List.map_append, List.length_append, List.length_map,
      List.length_map, List.length_singleton] at hlength
    have hbefore := List.length_pos_iff.2 (List.splitOn_ne_nil delimiter before)
    have hafter := List.length_pos_iff.2 (List.splitOn_ne_nil delimiter after)
    omega
  · intro h
    rw [List.splitOn_eq_singleton h, List.map_singleton, String.ofList_toList]

/-! ## Nodes -/

theorem node_of_ne {path : String} (h : path ≠ "") : node path = descend root (labels path) :=
  if_neg h

/-- Labels one after the other lead on from where the outer ones lead. -/
theorem descend_append (base : Node) (inner outer : List String) :
    descend base (inner ++ outer) = descend (descend base outer) inner :=
  List.foldr_append ..

theorem join_ne_empty {parent : String} (label : String) (hparent : parent ≠ "") :
    join parent label ≠ "" := by
  intro hempty
  have htext := congrArg String.toList hempty
  rw [join, if_neg hparent, String.toList_ofList] at htext
  simp at htext

/-- **The node of a joined path.**  Only the empty label of the root is no label of its own. -/
theorem node_join {parent label : String} (h : parent ≠ "" ∨ label ≠ "") :
    node (join parent label) = descend (node parent) (labels label) := by
  by_cases hparent : parent = ""
  · subst hparent
    exact node_of_ne (h.resolve_left (fun hne => hne rfl))
  · rw [node_of_ne (join_ne_empty label hparent), labels_join label hparent, descend_append,
      node_of_ne hparent]

/-- Whether a text is one label, below a given parent: it has no delimiter, and at the root it is
not empty. -/
def IsLabel (parent label : String) : Prop :=
  (parent ≠ "" ∨ label ≠ "") ∧ delimiter ∉ label.toList

instance (parent label : String) : Decidable (IsLabel parent label) :=
  inferInstanceAs (Decidable (_ ∧ _))

theorem node_join_of_isLabel {parent label : String} (h : IsLabel parent label) :
    node (join parent label) = child (node parent) label := by
  rw [node_join h.1, labels_eq_singleton_iff.2 h.2]
  rfl

end Rollout.Naming
