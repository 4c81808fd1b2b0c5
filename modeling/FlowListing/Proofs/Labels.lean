import FlowListing.Script

/-!
# Labels by their offsets

The label index groups labels without losing or moving any: the group of an offset is the labels with that offset, in their order
(`LabelIndex.labelsAt_ofLabels`). This rests on the groups standing in increasing order of their offsets. What one insertion does to
the groups (`LabelIndex.Groups.insert`) gives what the whole index is: it has a group for each offset that occurs and for no other, and
all the groups together are the labels (`Script.labelIndex_groups`).
-/

namespace FlowListing

namespace LabelIndex

/-- The groups of an index stand in increasing order of their offsets. -/
def Ordered (index : LabelIndex) : Prop :=
  index.Pairwise (·.1 < ·.1)

/-- A group after an insertion is an old one, or that of the label, which comes last in it. -/
theorem mem_insert {index : LabelIndex} {label : Label} {group : Int × List Label} (h : group ∈ index.insert label) :
    group ∈ index ∨ ∃ before, group = (label.offset, before ++ [label]) := by
  induction index with
  | nil =>
    rw [insert, List.mem_singleton] at h
    exact .inr ⟨[], h⟩
  | cons head rest ih =>
    obtain ⟨offset, labels⟩ := head
    unfold insert at h
    split at h
    · rcases List.mem_cons.mp h with rfl | h
      · exact .inr ⟨[], rfl⟩
      · exact .inl h
    · split at h
      · rename_i heq
        rcases List.mem_cons.mp h with rfl | h
        · exact .inr ⟨labels, by rw [heq]⟩
        · exact .inl (List.mem_cons_of_mem _ h)
      · rcases List.mem_cons.mp h with rfl | h
        · exact .inl List.mem_cons_self
        · rcases ih h with h | hnew
          · exact .inl (List.mem_cons_of_mem _ h)
          · exact .inr hnew

/-- Inserting a label keeps the groups in order. -/
theorem Ordered.insert {index : LabelIndex} (h : index.Ordered) (label : Label) : (index.insert label).Ordered := by
  induction index with
  | nil => exact List.pairwise_singleton _ _
  | cons head rest ih =>
    obtain ⟨offset, labels⟩ := head
    obtain ⟨hhead, hrest⟩ := List.pairwise_cons.mp h
    unfold LabelIndex.insert
    split
    · rename_i hlt
      refine List.pairwise_cons.mpr ⟨fun group hgroup => ?_, h⟩
      rcases List.mem_cons.mp hgroup with rfl | hgroup
      · exact hlt
      · exact Int.lt_trans hlt (hhead group hgroup)
    · split
      · exact List.pairwise_cons.mpr ⟨hhead, hrest⟩
      · refine List.pairwise_cons.mpr ⟨fun group hgroup => ?_, ih hrest⟩
        rcases mem_insert hgroup with hold | ⟨before, rfl⟩
        · exact hhead group hold
        · simp only
          omega

/-- The group of an offset that comes before all the groups is empty. -/
theorem labelsAt_of_lt {index : LabelIndex} {offset : Int} (h : ∀ group ∈ index, offset < group.1) :
    index.labelsAt offset = [] := by
  have hnone : List.lookup offset index = none := by
    rw [List.lookup_eq_none_iff]
    intro group hgroup
    have := h group hgroup
    simp only [bne_iff_ne]
    omega
  rw [labelsAt, hnone]
  rfl

/-- Labels are looked for in the first group, and then in the others. -/
theorem labelsAt_cons (group : Int × List Label) (rest : LabelIndex) (offset : Int) :
    LabelIndex.labelsAt (group :: rest) offset = if offset = group.1 then group.2 else LabelIndex.labelsAt rest offset := by
  unfold labelsAt
  rw [List.lookup_cons]
  by_cases h : offset = group.1
  · simp [h]
  · simp [h, beq_eq_false_iff_ne.mpr h]

/-- A label comes last in the group of its offset; the other groups stay. -/
theorem labelsAt_insert {index : LabelIndex} (h : index.Ordered) (label : Label) (offset : Int) :
    (index.insert label).labelsAt offset
      = index.labelsAt offset ++ if label.offset = offset then [label] else [] := by
  induction index with
  | nil =>
    rw [LabelIndex.insert, labelsAt_cons]
    by_cases heq : label.offset = offset
    · simp [heq, labelsAt]
    · simp [heq, Ne.symm heq, labelsAt]
  | cons head rest ih =>
    obtain ⟨first, labels⟩ := head
    obtain ⟨hhead, hrest⟩ := List.pairwise_cons.mp h
    unfold LabelIndex.insert
    split
    · rename_i hlt
      rw [labelsAt_cons]
      by_cases heq : label.offset = offset
      · -- the offset comes before all the groups that are there
        have hempty : LabelIndex.labelsAt ((first, labels) :: rest) offset = [] := by
          apply labelsAt_of_lt
          intro group hgroup
          rcases List.mem_cons.mp hgroup with rfl | hgroup
          · exact heq ▸ hlt
          · exact Int.lt_trans (heq ▸ hlt) (hhead group hgroup)
        simp [heq, hempty]
      · simp [heq, Ne.symm heq]
    · split
      · rename_i hsame
        rw [labelsAt_cons, labelsAt_cons]
        by_cases heq : offset = first
        · simp [heq, hsame]
        · have hne : label.offset ≠ offset := fun hl => heq (hl ▸ hsame)
          simp [heq, hne]
      · rename_i hother
        rw [labelsAt_cons, labelsAt_cons, ih hrest]
        by_cases heq : offset = first
        · have hne : label.offset ≠ offset := fun hl => hother (hl.trans heq)
          simp [heq, heq ▸ hne]
        · simp [heq]

/-- An insertion adds the label and takes none away. -/
theorem perm_flatMap_insert (index : LabelIndex) (label : Label) :
    ((index.insert label).flatMap (·.2)).Perm (index.flatMap (·.2) ++ [label]) := by
  induction index with
  | nil => exact .refl _
  | cons head rest ih =>
    obtain ⟨offset, labels⟩ := head
    unfold LabelIndex.insert
    split
    · exact (List.perm_append_singleton label _).symm
    · split
      · simp only [List.flatMap_cons, List.append_assoc]
        exact List.Perm.append_left labels List.perm_append_comm
      · simp only [List.flatMap_cons, List.append_assoc]
        exact ih.append_left labels

/-- The index groups the labels by their offsets and keeps their order: the groups stand in order and none is empty, the group of an
offset is the labels with that offset, and all the groups together are the labels. -/
structure Groups (index : LabelIndex) (labels : List Label) : Prop where
  ordered : index.Ordered
  nonempty : ∀ group ∈ index, group.2 ≠ []
  labelsAt_eq : ∀ offset, index.labelsAt offset = labels.filter (·.offset = offset)
  perm : (index.flatMap (·.2)).Perm labels

/-- An insertion brings the label behind those that were grouped. -/
theorem Groups.insert {index : LabelIndex} {labels : List Label} (h : index.Groups labels) (label : Label) :
    (index.insert label).Groups (labels ++ [label]) where
  ordered := h.ordered.insert label
  nonempty group hgroup := by
    rcases mem_insert hgroup with hold | ⟨before, rfl⟩
    · exact h.nonempty group hold
    · simp
  labelsAt_eq offset := by
    rw [labelsAt_insert h.ordered, h.labelsAt_eq, List.filter_append]
    by_cases heq : label.offset = offset <;> simp [heq]
  perm := (perm_flatMap_insert index label).trans (h.perm.append_right [label])

/-- The index of a list of labels groups them. -/
theorem groups_ofLabels (labels : List Label) : (ofLabels labels).Groups labels := by
  have hfold : ∀ (rest done : List Label) (index : LabelIndex), index.Groups done →
      (rest.foldl LabelIndex.insert index).Groups (done ++ rest) := by
    intro rest
    induction rest with
    | nil =>
      intro done index h
      rwa [List.append_nil]
    | cons label rest ih =>
      intro done index h
      have hrest := ih (done ++ [label]) (index.insert label) (h.insert label)
      rwa [List.append_assoc] at hrest
  have hempty : Groups [] [] := ⟨.nil, by simp, by simp [labelsAt], .nil⟩
  exact hfold labels [] [] hempty

/-- The group of an offset is the labels with that offset, in their order. -/
theorem labelsAt_ofLabels (labels : List Label) (offset : Int) :
    (ofLabels labels).labelsAt offset = labels.filter (·.offset = offset) :=
  (groups_ofLabels labels).labelsAt_eq offset

/-- Each group of an index in order is found at its offset. -/
theorem labelsAt_of_mem {index : LabelIndex} (h : index.Ordered) {group : Int × List Label} (hgroup : group ∈ index) :
    index.labelsAt group.1 = group.2 := by
  induction index with
  | nil => cases hgroup
  | cons head rest ih =>
    obtain ⟨hhead, hrest⟩ := List.pairwise_cons.mp h
    rw [labelsAt_cons]
    rcases List.mem_cons.mp hgroup with rfl | hgroup
    · rw [if_pos rfl]
    · rw [if_neg (Int.ne_of_gt (hhead group hgroup)), ih hrest hgroup]

/-- Labels are found only at offsets that have a group. -/
theorem mem_offsets_of_mem_labelsAt {index : LabelIndex} {offset : Int} {label : Label} (h : label ∈ index.labelsAt offset) :
    offset ∈ index.map (·.1) := by
  induction index with
  | nil => cases h
  | cons head rest ih =>
    rw [labelsAt_cons] at h
    split at h
    · rename_i heq
      exact heq ▸ List.mem_cons_self
    · exact List.mem_cons_of_mem _ (ih h)

/-- The offsets that have a group are those that occur. -/
theorem Groups.mem_offsets_iff {index : LabelIndex} {labels : List Label} (h : index.Groups labels) (offset : Int) :
    offset ∈ index.map (·.1) ↔ ∃ label ∈ labels, label.offset = offset := by
  constructor
  · intro hoffset
    obtain ⟨group, hgroup, rfl⟩ := List.mem_map.mp hoffset
    obtain ⟨label, hlabel⟩ := List.exists_mem_of_ne_nil _ (h.nonempty group hgroup)
    rw [← labelsAt_of_mem h.ordered hgroup, h.labelsAt_eq, List.mem_filter, decide_eq_true_iff] at hlabel
    exact ⟨label, hlabel⟩
  · rintro ⟨label, hlabel, rfl⟩
    have hfound : label ∈ index.labelsAt label.offset := by
      rw [h.labelsAt_eq, List.mem_filter, decide_eq_true_iff]
      exact ⟨hlabel, rfl⟩
    exact mem_offsets_of_mem_labelsAt hfound

end LabelIndex

/-- The label index of a script is a stable grouping of its jump labels and then its procedure labels:

* no offset has two groups, and those that have one are the offsets of the labels;
* the group of an offset is not empty, and it is the labels with that offset, in their order and each as often as it occurs;
* what is found at an offset, which is nothing where there is no group, is therefore all the labels with that offset;
* all the groups together are the labels, each as often as it occurs. -/
theorem Script.labelIndex_groups (script : Script) :
    (script.labelIndex.map (·.1)).Nodup ∧
      (∀ offset, offset ∈ script.labelIndex.map (·.1) ↔ ∃ label ∈ script.jumps ++ script.procedures, label.offset = offset) ∧
      (∀ group ∈ script.labelIndex,
        group.2 ≠ [] ∧ group.2 = (script.jumps ++ script.procedures).filter (·.offset = group.1)) ∧
      (∀ offset, script.labelIndex.labelsAt offset = (script.jumps ++ script.procedures).filter (·.offset = offset)) ∧
      (script.labelIndex.flatMap (·.2)).Perm (script.jumps ++ script.procedures) := by
  have hgroups : script.labelIndex.Groups (script.jumps ++ script.procedures) := LabelIndex.groups_ofLabels _
  refine ⟨?_, hgroups.mem_offsets_iff, ?_, hgroups.labelsAt_eq, hgroups.perm⟩
  · exact List.pairwise_map.mpr (hgroups.ordered.imp Int.ne_of_lt)
  · intro group hgroup
    refine ⟨hgroups.nonempty group hgroup, ?_⟩
    rw [← hgroups.labelsAt_eq, LabelIndex.labelsAt_of_mem hgroups.ordered hgroup]

/-- Labels of both tables at a negative offset, one label three times, and an offset beyond every script. -/
theorem Script.labelIndex_groups_shared :
    let script : Script :=
      { jumps := [⟨"a", 7⟩, ⟨"b", -1⟩, ⟨"a", 7⟩], procedures := [⟨"c", -1⟩, ⟨"a", 7⟩, ⟨"d", 0x100000000000000000⟩] }
    (-1, [⟨"b", -1⟩, ⟨"c", -1⟩]) ∈ script.labelIndex ∧
      [⟨"b", -1⟩, ⟨"c", -1⟩] = (script.jumps ++ script.procedures).filter (·.offset = -1) ∧
      7 ∈ script.labelIndex.map (·.1) ∧ 0 ∉ script.labelIndex.map (·.1) ∧
      script.labelIndex.labelsAt 7 = [⟨"a", 7⟩, ⟨"a", 7⟩, ⟨"a", 7⟩] ∧
      (script.labelIndex.flatMap (·.2)).count ⟨"a", 7⟩ = 3 := by
  intro script
  obtain ⟨-, hoffsets, hlabels, hfound, hperm⟩ := script.labelIndex_groups
  have hgroup : (-1, [⟨"b", -1⟩, ⟨"c", -1⟩]) ∈ script.labelIndex := by decide
  refine ⟨hgroup, (hlabels _ hgroup).2, ?_, ?_, ?_, ?_⟩
  · exact (hoffsets 7).mpr ⟨⟨"a", 7⟩, by decide, rfl⟩
  · rw [hoffsets]
    decide
  · rw [hfound]
    decide
  · rw [hperm.count_eq]
    decide

/-- The labels that point to a slot: the jump labels in their order, and then the procedure labels in theirs. -/
def Script.labelsAt (script : Script) (p : Nat) : List Label :=
  (script.jumps ++ script.procedures).filter fun label => label.offset = (p : Int)

/-- The names of the labels that point to a slot. -/
def Script.namesAt (script : Script) (p : Nat) : List String :=
  (script.labelsAt p).map (·.name)

/-- The names that the index has at a slot are those of the labels that point to it. -/
theorem Script.map_name_labelsAt (script : Script) (p : Nat) :
    (script.labelIndex.labelsAt p).map (·.name) = script.namesAt p := by
  rw [labelIndex, LabelIndex.labelsAt_ofLabels, namesAt, labelsAt]

/-- A name at a slot is that of a label. -/
theorem Script.exists_label_of_mem_namesAt {script : Script} {index : Nat} {name : String} (h : name ∈ script.namesAt index) :
    ∃ label ∈ script.jumps ++ script.procedures, label.name = name := by
  obtain ⟨label, hlabel, hname⟩ := List.mem_map.mp h
  exact ⟨label, (List.mem_filter.mp hlabel).1, hname⟩

end FlowListing
