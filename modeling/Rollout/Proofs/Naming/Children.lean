import Rollout.Proofs.Naming.Collision

/-!
# Proofs/Naming/Children — when a joined path leads to the child of its parent

A path is joined as text, and the child of a node is hashed.  Both are ways down from the root: the
joined path goes through all labels that the text of the label is made of, the child through that
text as one label.  The two ways are the same exactly if the text is one label
(`wayTo_join_eq_iff`), and two different ways lead to one node only where digests collide.
-/

namespace Rollout.Naming

variable {parent label : String}

/-! ## Two ways down -/

theorem wayTo_of_ne {path : String} (h : path ≠ "") : wayTo path = labels path :=
  if_neg h

theorem wayTo_join (h : parent ≠ "" ∨ label ≠ "") :
    wayTo (join parent label) = labels label ++ wayTo parent := by
  by_cases hparent : parent = ""
  · subst hparent
    rw [join, if_pos rfl, wayTo_of_ne (h.resolve_left (fun hne => hne rfl))]
    exact (List.append_nil _).symm
  · rw [wayTo_of_ne (join_ne_empty label hparent), labels_join label hparent, wayTo_of_ne hparent]

/-- The child of the parent's node lies one label further. -/
theorem child_node_eq_descend (parent label : String) :
    child (node parent) label = descend root (label :: wayTo parent) := by
  rw [descend_cons, node_eq_descend]

/-- **The joined path goes the way of the child** exactly if the text is one label. -/
theorem wayTo_join_eq_iff :
    wayTo (join parent label) = label :: wayTo parent ↔ IsLabel parent label := by
  by_cases h : parent ≠ "" ∨ label ≠ ""
  · rw [wayTo_join h, ← List.singleton_append, List.append_left_inj, labels_eq_singleton_iff]
    exact (and_iff_right h).symm
  · obtain ⟨rfl, rfl⟩ : parent = "" ∧ label = "" := by simpa using h
    refine iff_of_false (fun hway => ?_) fun hlabel => h hlabel.1
    exact List.cons_ne_nil _ _ hway.symm

/-- The byte strings that are hashed for the child of a parent. -/
def hashedForChild (parent label : String) : List (List UInt8) :=
  hashedBelow (label :: wayTo parent)

theorem isLabel_or_collides (h : node (join parent label) = child (node parent) label) :
    IsLabel parent label ∨
      Collides (hashedFor (join parent label) ++ hashedForChild parent label) := by
  rw [node_eq_descend, child_node_eq_descend] at h
  exact (eq_or_collides_of_descend h).imp_left wayTo_join_eq_iff.1

/-- The joined path as a text. -/
theorem join_eq_append (label : String) (hparent : parent ≠ "") :
    join parent label = label ++ "." ++ parent := by
  rw [join, if_neg hparent, ← String.toList_inj, String.toList_ofList, String.toList_append,
    String.toList_append, List.append_assoc]
  rfl

/-- **A joined path leads to the child of its parent** exactly if the label is one label, unless
digests collide among what is hashed for the two; one label does so whatever the digests are.  So
the node of a path is the child of the node of what stands behind its first label. -/
theorem node_join_eq_child (parent label : String) :
    (¬ Collides (hashedFor (join parent label) ++ hashedForChild parent label) →
        (node (join parent label) = child (node parent) label ↔
          delimiter ∉ label.toList ∧ ¬ (parent = "" ∧ label = ""))) ∧
      (IsLabel parent label → node (join parent label) = child (node parent) label) ∧
      (delimiter ∉ label.toList → parent ≠ "" →
        node (label ++ "." ++ parent) = child (node parent) label) := by
  refine ⟨fun hfree => ?_, node_join_of_isLabel, fun hlabel hparent => ?_⟩
  · have hiff : node (join parent label) = child (node parent) label ↔ IsLabel parent label :=
      ⟨fun hnode => (isLabel_or_collides hnode).resolve_right hfree, node_join_of_isLabel⟩
    rw [hiff, IsLabel, and_comm, not_and_or]
  · rw [← join_eq_append label hparent]
    exact node_join_of_isLabel ⟨.inl hparent, hlabel⟩

theorem not_collides_dotted :
    ¬ Collides (hashedFor (join "eth" "a.b") ++ hashedForChild "eth" "a.b") := by
  have hbytes : ∀ label ∈ ["a", "b", "a.b", "eth"],
      (Hex.bytesOf label).length < Keccak.rate := by decide +kernel
  have ha := hbytes "a" (by simp)
  have hb := hbytes "b" (by simp)
  have hdotted := hbytes "a.b" (by simp)
  have heth := hbytes "eth" (by simp)
  have hways : wayTo (join "eth" "a.b") = ["a", "b", "eth"] ∧ wayTo "eth" = ["eth"] := by
    decide +kernel
  -- what is hashed for the parent is hashed on both ways, and counts once
  suffices hfree : ¬ Collides (hashedBelow ["a", "b", "eth"] ++
      (hashedBelow ["a.b", "eth"]).take 2) by
    refine fun hcollides => hfree (hcollides.mono ?_)
    rw [hashedFor, hashedForChild, hways.1, hways.2]
    simp [hashedBelow, List.subset_def]
  refine not_collides_of_nodup ?_ ?_
  · simp [hashedBelow, ha, hb, hdotted, heth, FixedBytes.length_toList]
    decide
  · simp only [hashedBelow, descend_cons, toList_child _ heth, toList_child _ hb,
      toList_labelHash ha, toList_labelHash hb, toList_labelHash hdotted, toList_labelHash heth]
    decide +kernel

/-- A label with a dot in it leads elsewhere than the child that is hashed. -/
theorem node_join_eq_child_dotted :
    ¬ Collides (hashedFor (join "eth" "a.b") ++ hashedForChild "eth" "a.b") ∧
      node (join "eth" "a.b") ≠ child (node "eth") "a.b" ∧
      IsLabel "b.eth" "a" ∧ node (join "b.eth" "a") = child (node "b.eth") "a" ∧
      node ("a" ++ "." ++ "b.eth") = child (node "b.eth") "a" := by
  have hdotted := (node_join_eq_child "eth" "a.b").1 not_collides_dotted
  have hlabel : IsLabel "b.eth" "a" := by decide
  obtain ⟨-, hjoined, hrest⟩ := node_join_eq_child "b.eth" "a"
  exact ⟨not_collides_dotted, hdotted.not.2 (by decide), hlabel, hjoined hlabel,
    hrest hlabel.2 (by decide)⟩

end Rollout.Naming
