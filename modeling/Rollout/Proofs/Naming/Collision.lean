import Rollout.Proofs.Data.Bytes
import Rollout.Proofs.Data.Keccak
import Rollout.Proofs.Naming.Path

/-!
# Proofs/Naming/Collision — a node belongs to one path, as far as digests can tell

The node of a path is folded from digests: of every label, and of every parent's node in front of
its label's digest.  Going back from equal nodes, equal digests of the same bytes uncover the same
label and the same parent again, one label after the other, until both paths are used up.  What can
stop this is a digest that two different byte strings share, or a parent whose digest is that of the
root, where one path ends and the other goes on (`eq_or_collides_of_descend`).
-/

namespace Rollout.Naming

variable {p q : String} {inner outer : List (List UInt8)}

/-! ## What is hashed -/

/-- The byte strings that are hashed on the way from the root through the labels. -/
def hashedBelow : List String → List (List UInt8)
  | [] => []
  | label :: labels =>
    ((descend root labels).toList ++ (labelHash label).toList) :: Hex.bytesOf label ::
      hashedBelow labels

/-- The labels that lead from the root to the node of a path: none to the root itself. -/
def wayTo (path : String) : List String :=
  if path = "" then [] else labels path

/-- The byte strings that are hashed for the node of a path. -/
def hashedFor (path : String) : List (List UInt8) :=
  hashedBelow (wayTo path)

/-- **Digests collide** among byte strings: two different ones have the same digest, or one that is
as long as two digests has the digest that is the root. -/
def Collides (messages : List (List UInt8)) : Prop :=
  (∃ x ∈ messages, ∃ y ∈ messages, x ≠ y ∧ Keccak.digest x = Keccak.digest y) ∨
    ∃ x ∈ messages, x.length = 64 ∧ Keccak.digest x = root

theorem Collides.mono (h : Collides inner) (hsub : inner ⊆ outer) : Collides outer := by
  rcases h with ⟨x, hx, y, hy, hne, hsame⟩ | ⟨x, hx, hlength, hroot⟩
  · exact .inl ⟨x, hsub hx, y, hsub hy, hne, hsame⟩
  · exact .inr ⟨x, hsub hx, hlength, hroot⟩

theorem length_parent_append (parent : Node) (label : String) :
    (parent.toList ++ (labelHash label).toList).length = 64 := by
  rw [List.length_append, parent.length_toList, (labelHash label).length_toList]

/-- No way that goes down leads to the root. -/
theorem collides_of_descend_root {label : String} {labels : List String}
    (h : descend root (label :: labels) = root) : Collides (hashedBelow (label :: labels)) :=
  .inr ⟨_, List.mem_cons_self, length_parent_append .., h⟩

theorem descend_cons (base : Node) (label : String) (labels : List String) :
    descend base (label :: labels) = child (descend base labels) label :=
  rfl

/-! ## Going back from equal nodes -/

/-- Equal digests come from equal byte strings, unless they collide. -/
theorem eq_or_collides {messages : List (List UInt8)} {x y : List UInt8} (hx : x ∈ messages)
    (hy : y ∈ messages) (h : Keccak.digest x = Keccak.digest y) : x = y ∨ Collides messages := by
  by_cases hsame : x = y
  · exact .inl hsame
  · exact .inr (.inl ⟨x, hx, y, hy, hsame, h⟩)

/-- A child has one parent and one label. -/
theorem child_inj_or_collides {messages : List (List UInt8)} {parent parent' : Node}
    {label label' : String}
    (hchild : parent.toList ++ (labelHash label).toList ∈ messages)
    (hchild' : parent'.toList ++ (labelHash label').toList ∈ messages)
    (hlabel : Hex.bytesOf label ∈ messages) (hlabel' : Hex.bytesOf label' ∈ messages)
    (h : child parent label = child parent' label') :
    (parent = parent' ∧ label = label') ∨ Collides messages := by
  rcases eq_or_collides hchild hchild' h with hbytes | hcollides
  · obtain ⟨hparent, hdigest⟩ := FixedBytes.append_inj hbytes
    exact (eq_or_collides hlabel hlabel' hdigest).imp_left fun htext =>
      ⟨hparent, Hex.bytesOf_injective htext⟩
  · exact .inr hcollides

/-- **Two ways to one node are the same**, unless digests collide on them. -/
theorem eq_or_collides_of_descend {way way' : List String}
    (h : descend root way = descend root way') :
    way = way' ∨ Collides (hashedBelow way ++ hashedBelow way') := by
  -- from the innermost labels outwards, as long as both ways have any
  induction way generalizing way' with
  | nil =>
    match way' with
    | [] => exact .inl rfl
    | label' :: way' => exact .inr (collides_of_descend_root h.symm)
  | cons label way ih =>
    match way' with
    | [] => exact .inr ((collides_of_descend_root h).mono (List.subset_append_left ..))
    | label' :: way' =>
      rw [descend_cons, descend_cons] at h
      have hstep : (descend root way = descend root way' ∧ label = label') ∨
          Collides (hashedBelow (label :: way) ++ hashedBelow (label' :: way')) :=
        child_inj_or_collides (by simp [hashedBelow]) (by simp [hashedBelow])
          (by simp [hashedBelow]) (by simp [hashedBelow]) h
      rcases hstep with ⟨hparent, rfl⟩ | hcollides
      · refine (ih hparent).imp (congrArg (label :: ·)) fun hcollides => hcollides.mono ?_
        have htail (way : List String) : hashedBelow way ⊆ hashedBelow (label :: way) :=
          fun _ hx => List.mem_cons_of_mem _ (List.mem_cons_of_mem _ hx)
        exact List.append_subset.2 ⟨List.Subset.trans (htail way) (List.subset_append_left ..),
          List.Subset.trans (htail way') (List.subset_append_right ..)⟩
      · exact .inr hcollides

/-! ## Paths -/

theorem node_eq_descend (path : String) : node path = descend root (wayTo path) := by
  rw [node, wayTo]
  split <;> rfl

theorem labels_ne_nil (path : String) : labels path ≠ [] := by
  rw [labels]
  exact fun h => List.splitOn_ne_nil _ _ (List.map_eq_nil_iff.1 h)

theorem labels_injective (h : labels p = labels q) : p = q := by
  have hpieces : p.toList.splitOn delimiter = q.toList.splitOn delimiter :=
    List.map_injective_iff.2 (fun _ _ => String.ofList_injective) h
  have hjoined := congrArg (List.intercalate [delimiter]) hpieces
  rw [List.intercalate_splitOn, List.intercalate_splitOn] at hjoined
  exact String.toList_inj.1 hjoined

/-- Different paths have different ways, also where a label is empty. -/
theorem wayTo_injective (h : wayTo p = wayTo q) : p = q := by
  by_cases hp : p = "" <;> by_cases hq : q = "" <;>
    simp only [wayTo, hp, hq, if_true, if_false] at h
  · rw [hp, hq]
  · exact absurd h.symm (labels_ne_nil q)
  · exact absurd h (labels_ne_nil p)
  · exact labels_injective h

theorem eq_or_collides_of_node (h : node p = node q) :
    p = q ∨ Collides (hashedFor p ++ hashedFor q) := by
  rw [node_eq_descend, node_eq_descend] at h
  exact (eq_or_collides_of_descend h).imp_left wayTo_injective

/-- **Different paths have different nodes**, unless digests collide among the byte strings that are
hashed for the two. -/
theorem node_inj_iff (h : ¬ Collides (hashedFor p ++ hashedFor q)) : node p = node q ↔ p = q :=
  ⟨fun hnode => (eq_or_collides_of_node hnode).resolve_right h, congrArg node⟩

/-- Digests of short strings tell whether any collide. -/
theorem not_collides_of_nodup {messages : List (List UInt8)}
    (hlength : ∀ x ∈ messages, x.length < Keccak.rate)
    (hnodup : (root.toList :: messages.map Keccak.shortDigest).Nodup) : ¬ Collides messages := by
  obtain ⟨hroot, hdigests⟩ := List.nodup_cons.1 hnodup
  rintro (⟨x, hx, y, hy, hne, hsame⟩ | ⟨x, hx, -, hzero⟩)
  · exact hne (Keccak.digest_inj_of_nodup hlength hdigests x hx y hy hsame)
  · refine hroot (List.mem_map.2 ⟨x, hx, ?_⟩)
    rw [← Keccak.toList_digest (hlength x hx), hzero]

theorem not_collides_nested : ¬ Collides (hashedFor "alice.eth" ++ hashedFor "bob") := by
  have hbytes : ∀ label ∈ ["alice", "eth", "bob"], (Hex.bytesOf label).length < Keccak.rate := by
    decide +kernel
  have halice := hbytes "alice" (by simp)
  have heth := hbytes "eth" (by simp)
  have hbob := hbytes "bob" (by simp)
  have hways : wayTo "alice.eth" = ["alice", "eth"] ∧ wayTo "bob" = ["bob"] := by decide
  have hhashed : hashedFor "alice.eth" ++ hashedFor "bob" =
      hashedBelow ["alice", "eth"] ++ hashedBelow ["bob"] := by
    rw [hashedFor, hashedFor, hways.1, hways.2]
  rw [hhashed]
  refine not_collides_of_nodup ?_ ?_
  · simp [hashedBelow, halice, heth, hbob, FixedBytes.length_toList]
    decide
  · simp only [hashedBelow, descend_cons, toList_child _ heth, toList_labelHash halice,
      toList_labelHash heth, toList_labelHash hbob]
    decide +kernel

/-- A name below another and a third one have two nodes. -/
theorem node_inj_iff_nested :
    ¬ Collides (hashedFor "alice.eth" ++ hashedFor "bob") ∧ node "alice.eth" ≠ node "bob" :=
  ⟨not_collides_nested, (node_inj_iff not_collides_nested).not.2 (by decide)⟩

end Rollout.Naming
