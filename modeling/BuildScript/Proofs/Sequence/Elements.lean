import BuildScript.Sequence.Edit
import BuildScript.Sequence.Order
import Mathlib.Data.List.Basic

/-! Which elements a changed sequence has: removals leave a part of the sequence, insertions add
what is inserted, and sorting only changes the order. All of these go along with an exchange of the
elements, as long as the questions to the elements have the same answers.

Removals go from one end of a sequence. The unwanted elements that are nearest to this end are
left out, as many as the limit allows, and all others keep their order. A removal from the other end
is one from the reversed sequence.

Sorting puts elements into ascending order and keeps those in their order of
which neither is less, if the order of the elements is consistent. None is better than the best one.
-/

namespace BuildScript.Sequence

section Removals

variable {α : Type} {unwanted : α → Bool}

-----------------------------------------------------------------------------------------
-- Removals from the front
-----------------------------------------------------------------------------------------

/-- A removal that is under way keeps what it has kept and goes on with what is left of its limit,
by induction over the elements that are left.
-/
theorem removeSteps_eq (limit : Nat) (elements kept : List α) (removed : Nat)
    : elements.foldl (removeStep unwanted limit) (kept, removed) =
        ((removeFirst unwanted (limit - removed) elements).1.reverse ++ kept,
          removed + (removeFirst unwanted (limit - removed) elements).2) := by
  induction elements generalizing limit kept removed with
  | nil => rfl
  | cons first rest ih =>
      simp only [removeFirst, List.foldl_cons, removeStep, Nat.sub_pos_iff_lt, List.reverse_reverse]
      split
      · rw [ih, ih]
        simp only [Nat.sub_sub, List.append_nil, Nat.zero_add, ← Nat.add_assoc]
      · rw [ih, ih]
        simp

theorem removeFirst_eq_steps (limit : Nat) (elements : List α)
    : removeFirst unwanted limit elements =
        ((elements.foldl (removeStep unwanted limit) ([], 0)).1.reverse,
          (elements.foldl (removeStep unwanted limit) ([], 0)).2) :=
  rfl

/-- Only what the elements of a sequence are matters for what is unwanted. -/
theorem removeFirst_congr {other : α → Bool} (limit : Nat) {elements : List α}
    (agree : ∀ element ∈ elements, other element = unwanted element)
    : removeFirst other limit elements = removeFirst unwanted limit elements := by
  have steps : elements.foldl (removeStep other limit) ([], 0) =
      elements.foldl (removeStep unwanted limit) ([], 0) := by
    refine List.foldl_ext _ _ _ fun state element among => ?_
    rw [removeStep, removeStep, agree element among]
  rw [removeFirst_eq_steps, removeFirst_eq_steps, steps]

theorem removeFirst_nil (limit : Nat) : removeFirst unwanted limit [] = ([], 0) := rfl

theorem removeFirst_cons_out {first : α} (out : unwanted first = true) (limit : Nat)
    (rest : List α)
    : removeFirst unwanted (limit + 1) (first :: rest) =
        ((removeFirst unwanted limit rest).1, (removeFirst unwanted limit rest).2 + 1) := by
  have step : removeStep unwanted (limit + 1) ([], 0) first = ([], 1) := by
    simp [removeStep, out]
  rw [removeFirst_eq_steps, List.foldl_cons, step, removeSteps_eq, List.append_nil,
    List.reverse_reverse, Nat.add_sub_cancel, Nat.add_comm 1]

theorem removeFirst_cons_kept {first : α} {limit : Nat}
    (kept : (decide (0 < limit) && unwanted first) = false) (rest : List α)
    : removeFirst unwanted limit (first :: rest) =
        (first :: (removeFirst unwanted limit rest).1, (removeFirst unwanted limit rest).2) := by
  have step : removeStep unwanted limit ([], 0) first = ([first], 0) := by
    simp only [removeStep, kept, Bool.false_eq_true, if_false]
  rw [removeFirst_eq_steps, List.foldl_cons, step, removeSteps_eq, List.reverse_append,
    List.reverse_reverse, Nat.sub_zero, Nat.zero_add]
  rfl

/-- Without a limit above zero nothing is removed. -/
theorem removeFirst_zero (elements : List α) : removeFirst unwanted 0 elements = (elements, 0) := by
  induction elements with
  | nil => rfl
  | cons first rest ih => rw [removeFirst_cons_kept rfl, ih]

/-- A removal leaves out the unwanted elements of a front part, which has as many of them as the
limit allows, by induction over the elements.
-/
theorem removeFirst_eq (unwanted : α → Bool) (limit : Nat) (elements : List α)
    : ∃ front back, elements = front ++ back
        ∧ front.countP unwanted = min limit (elements.countP unwanted)
        ∧ removeFirst unwanted limit elements =
            (front.filter (!unwanted ·) ++ back, min limit (elements.countP unwanted)) := by
  induction elements generalizing limit with
  | nil => exact ⟨[], [], rfl, by simp, by simp [removeFirst_nil]⟩
  | cons first rest ih =>
      cases limit with
      | zero => exact ⟨[], first :: rest, rfl, by simp, by simp [removeFirst_zero]⟩
      | succ limit =>
          by_cases out : unwanted first = true
          · obtain ⟨front, back, rfl, counted, removal⟩ := ih limit
            refine ⟨first :: front, back, rfl, ?_, ?_⟩
            · rw [List.countP_cons_of_pos out, List.countP_cons_of_pos out, counted,
                Nat.add_min_add_right]
            · rw [removeFirst_cons_out out, removal, List.countP_cons_of_pos out,
                Nat.add_min_add_right, List.filter_cons_of_neg (by simp [out])]
          · obtain ⟨front, back, rfl, counted, removal⟩ := ih (limit + 1)
            refine ⟨first :: front, back, rfl, ?_, ?_⟩
            · rw [List.countP_cons_of_neg out, List.countP_cons_of_neg out, counted]
            · rw [removeFirst_cons_kept (by simp [out]), removal, List.countP_cons_of_neg out,
                List.filter_cons_of_pos (by simp [out]), List.cons_append]

/-- No more elements are left out than the limit allows. -/
theorem removeFirst_le (unwanted : α → Bool) (limit : Nat) (elements : List α)
    : (removeFirst unwanted limit elements).2 ≤ limit := by
  obtain ⟨_, _, _, _, removal⟩ := removeFirst_eq unwanted limit elements
  rw [removal]
  exact Nat.min_le_left _ _

/-- All unwanted elements are left out if the limit allows as many. -/
theorem removeFirst_all {limit : Nat} {elements : List α}
    (enough : elements.countP unwanted ≤ limit)
    : removeFirst unwanted limit elements =
        (elements.filter (!unwanted ·), elements.countP unwanted) := by
  obtain ⟨front, back, rfl, counted, removal⟩ := removeFirst_eq unwanted limit elements
  rw [Nat.min_eq_right enough] at counted removal
  have wanted : back.countP unwanted = 0 := by
    rw [List.countP_append] at counted
    omega
  have kept : back.filter (!unwanted ·) = back :=
    List.filter_eq_self.mpr fun element among => by
      simpa using List.countP_eq_zero.mp wanted element among
  rw [removal, List.filter_append, kept]

-----------------------------------------------------------------------------------------
-- Removals from the back
-----------------------------------------------------------------------------------------

/-- A walk back over a sequence removes what a removal from the front of the reversed one does, by
induction over the elements that are left, the last of them first.
-/
theorem removeBackwards_eq (unwanted : α → Bool) (limit : Nat) (reversed behind : List α)
    (removed : Nat)
    : removeBackwards unwanted limit reversed.length (reversed.reverse ++ behind, removed) =
        ((removeFirst unwanted (limit - removed) reversed).1.reverse ++ behind,
          removed + (removeFirst unwanted (limit - removed) reversed).2) := by
  induction reversed generalizing behind removed with
  | nil => rfl
  | cons last rest ih =>
      have here : ((last :: rest).reverse ++ behind)[rest.length]? = some last := by simp
      have erased : ((last :: rest).reverse ++ behind).eraseIdx rest.length =
          rest.reverse ++ behind := by
        simp [List.eraseIdx_append_of_length_le]
      rw [List.length_cons, removeBackwards, here, erased, Option.any_some]
      split
      · next more =>
          obtain ⟨left, limited⟩ : ∃ left, limit - removed = left + 1 :=
            Nat.exists_eq_add_one.mpr (Nat.sub_pos_of_lt more)
          split
          · next out =>
              have less : limit - (removed + 1) = left := by omega
              rw [ih, less, limited, removeFirst_cons_out out, Nat.add_assoc, Nat.add_comm 1]
          · next out =>
              have later := ih (last :: behind) removed
              rw [List.reverse_cons, List.append_assoc, List.singleton_append, later,
                removeFirst_cons_kept (by simp [out]), List.reverse_cons, List.append_assoc,
                List.singleton_append]
      · next full =>
          rw [Nat.sub_eq_zero_of_le (Nat.le_of_not_lt full), removeFirst_zero]
          rfl

/-- A removal from the back is one from the front of the reversed sequence, reversed again. -/
theorem removeLast_eq_reverse (unwanted : α → Bool) (limit : Nat) (elements : List α)
    : removeLast unwanted limit elements =
        ((removeFirst unwanted limit elements.reverse).1.reverse,
          (removeFirst unwanted limit elements.reverse).2) := by
  have walk := removeBackwards_eq unwanted limit elements.reverse [] 0
  simpa [removeLast] using walk

theorem removeLast_le (unwanted : α → Bool) (limit : Nat) (elements : List α)
    : (removeLast unwanted limit elements).2 ≤ limit := by
  rw [removeLast_eq_reverse]
  exact removeFirst_le unwanted limit elements.reverse

/-- A removal from the back leaves out the unwanted elements of a back part, which has as many of
them as the limit allows.
-/
theorem removeLast_eq (unwanted : α → Bool) (limit : Nat) (elements : List α)
    : ∃ front back, elements = front ++ back
        ∧ back.countP unwanted = min limit (elements.countP unwanted)
        ∧ removeLast unwanted limit elements =
            (front ++ back.filter (!unwanted ·), min limit (elements.countP unwanted)) := by
  obtain ⟨back, front, split, counted, removal⟩ :=
    removeFirst_eq unwanted limit elements.reverse
  rw [List.countP_reverse] at counted removal
  refine ⟨front.reverse, back.reverse, ?_, ?_, ?_⟩
  · rw [← List.reverse_append, ← split, List.reverse_reverse]
  · rw [List.countP_reverse, counted]
  · rw [removeLast_eq_reverse, removal, List.filter_reverse, ← List.reverse_append]

end Removals

section Elements

variable {α : Type}

/-- Whatever is put somewhere into a sequence is all that the sequence gains. -/
theorem insertAt_perm (place : Nat) (inserted elements : List α)
    : (insertAt place inserted elements).Perm (inserted ++ elements) := by
  have moved : (elements.take place ++ inserted ++ elements.drop place).Perm
      (inserted ++ elements.take place ++ elements.drop place) :=
    List.perm_append_comm.append_right _
  rwa [List.append_assoc inserted, List.take_append_drop] at moved

theorem eraseRange_sublist (place count : Nat) (elements : List α)
    : (eraseRange place count elements).Sublist elements := by
  have later : (elements.drop (place + count)).Sublist (elements.drop place) := by
    rw [← List.drop_drop]
    exact List.drop_sublist count _
  have joined := List.Sublist.append (List.Sublist.refl (elements.take place)) later
  rwa [List.take_append_drop] at joined

/-- A removal keeps a part of what it goes through, by induction over that. -/
theorem removeSteps_sublist (unwanted : α → Bool) (limit : Nat) (elements : List α)
    (state : List α × Nat)
    : (elements.foldl (removeStep unwanted limit) state).1.reverse.Sublist
        (state.1.reverse ++ elements) := by
  induction elements generalizing state with
  | nil => simp
  | cons first rest ih =>
      refine (ih (removeStep unwanted limit state first)).trans ?_
      rw [removeStep]
      split
      · exact (List.sublist_cons_self first rest).append_left _
      · simp

theorem removeFirst_sublist (unwanted : α → Bool) (limit : Nat) (elements : List α)
    : (removeFirst unwanted limit elements).1.Sublist elements :=
  removeSteps_sublist unwanted limit elements ([], 0)

theorem removeLast_sublist (unwanted : α → Bool) (limit : Nat) (elements : List α)
    : (removeLast unwanted limit elements).1.Sublist elements := by
  have reversed := (removeFirst_sublist unwanted limit elements.reverse).reverse
  rw [List.reverse_reverse] at reversed
  rw [removeLast_eq_reverse]
  exact reversed

theorem insertSorted_perm (less : α → α → Bool) (element : α) (sorted : List α)
    : (insertSorted less element sorted).Perm (element :: sorted) := by
  induction sorted with
  | nil => exact .refl _
  | cons last rest ih =>
      rw [insertSorted]
      split
      · exact (ih.cons last).trans (.swap element last rest)
      · exact .refl _

/-- Sorting keeps all elements, by induction over those that are left to be sorted in. -/
theorem sort_perm (less : α → α → Bool) (elements : List α)
    : (sort less elements).Perm elements := by
  have folded (rest sorted : List α)
      : (rest.foldl (fun sorted element => insertSorted less element sorted) sorted).Perm
          (rest ++ sorted) := by
    induction rest generalizing sorted with
    | nil => exact .refl _
    | cons first rest ih =>
        exact (ih _).trans (((insertSorted_perm less first sorted).append_left rest).trans
          List.perm_middle)
  have kept := folded elements []
  rw [List.append_nil] at kept
  exact (List.reverse_perm _).trans kept

-----------------------------------------------------------------------------------------
-- Exchanged elements
-----------------------------------------------------------------------------------------

variable {β : Type} (change : α → β)

theorem insertAt_map (place : Nat) (inserted elements : List α)
    : insertAt place (inserted.map change) (elements.map change) =
        (insertAt place inserted elements).map change := by
  simp only [insertAt, List.map_append, List.map_take, List.map_drop]

theorem slice_map (place count : Nat) (elements : List α)
    : slice place count (elements.map change) = (slice place count elements).map change := by
  simp only [slice, List.map_take, List.map_drop]

theorem eraseRange_map (place count : Nat) (elements : List α)
    : eraseRange place count (elements.map change) =
        (eraseRange place count elements).map change := by
  simp only [eraseRange, List.map_append, List.map_take, List.map_drop]

variable {change}

/-- A removal goes through changed elements as through others that are unwanted just as they are,
by induction over them.
-/
theorem removeSteps_map {unwanted : α → Bool} {unwanted' : β → Bool} (limit : Nat)
    {elements : List α}
    (agree : ∀ element ∈ elements, unwanted' (change element) = unwanted element)
    (kept : List α) (removed : Nat)
    : (elements.map change).foldl (removeStep unwanted' limit) (kept.map change, removed) =
        let state := elements.foldl (removeStep unwanted limit) (kept, removed)
        (state.1.map change, state.2) := by
  induction elements generalizing kept removed with
  | nil => rfl
  | cons first rest ih =>
      obtain ⟨here, later⟩ := List.forall_mem_cons.mp agree
      rw [List.map_cons, List.foldl_cons, List.foldl_cons, removeStep, removeStep, here]
      split
      · exact ih later kept (removed + 1)
      · exact ih later (first :: kept) removed

theorem removeFirst_map {unwanted : α → Bool} {unwanted' : β → Bool} (limit : Nat)
    {elements : List α}
    (agree : ∀ element ∈ elements, unwanted' (change element) = unwanted element)
    : removeFirst unwanted' limit (elements.map change) =
        let (kept, removed) := removeFirst unwanted limit elements
        (kept.map change, removed) := by
  have steps := removeSteps_map limit agree [] 0
  rw [List.map_nil] at steps
  simp only [removeFirst, steps, List.map_reverse]

theorem removeLast_map {unwanted : α → Bool} {unwanted' : β → Bool} (limit : Nat)
    {elements : List α}
    (agree : ∀ element ∈ elements, unwanted' (change element) = unwanted element)
    : removeLast unwanted' limit (elements.map change) =
        let (kept, removed) := removeLast unwanted limit elements
        (kept.map change, removed) := by
  have removal := removeFirst_map limit (fun element (among : element ∈ elements.reverse) =>
    agree element (List.mem_reverse.mp among))
  rw [List.map_reverse] at removal
  simp only [removeLast_eq_reverse, removal, List.map_reverse]

theorem findIdx?_map {wanted : α → Bool} {wanted' : β → Bool} {elements : List α}
    (agree : ∀ element ∈ elements, wanted' (change element) = wanted element)
    : (elements.map change).findIdx? wanted' = elements.findIdx? wanted := by
  induction elements with
  | nil => rfl
  | cons first rest ih =>
      obtain ⟨here, later⟩ := List.forall_mem_cons.mp agree
      rw [List.map_cons, List.findIdx?_cons, List.findIdx?_cons, here, ih later]

theorem insertSorted_map {less : α → α → Bool} {less' : β → β → Bool} {element : α}
    {sorted : List α}
    (agree : ∀ last ∈ sorted, less' (change element) (change last) = less element last)
    : insertSorted less' (change element) (sorted.map change) =
        (insertSorted less element sorted).map change := by
  induction sorted with
  | nil => rfl
  | cons last rest ih =>
      obtain ⟨here, later⟩ := List.forall_mem_cons.mp agree
      rw [List.map_cons, insertSorted, insertSorted, here]
      split
      · rw [ih later, List.map_cons]
      · rfl

/-- Sorting changed elements is changing sorted ones if they are in the same order, by induction
over those that are left to be sorted in.
-/
theorem sort_map {less : α → α → Bool} {less' : β → β → Bool} {elements : List α}
    (agree : ∀ a ∈ elements, ∀ b ∈ elements, less' (change a) (change b) = less a b)
    : sort less' (elements.map change) = (sort less elements).map change := by
  have folded (rest sorted : List α) (rests : rest ⊆ elements) (among : sorted ⊆ elements)
      : (rest.map change).foldl (fun sorted element => insertSorted less' element sorted)
          (sorted.map change) =
            (rest.foldl (fun sorted element => insertSorted less element sorted) sorted).map
              change := by
    induction rest generalizing sorted with
    | nil => rfl
    | cons first rest ih =>
        obtain ⟨here, later⟩ := List.cons_subset.mp rests
        rw [List.map_cons, List.foldl_cons, List.foldl_cons,
          insertSorted_map fun last inside => agree first here last (among inside)]
        refine ih _ later ?_
        exact fun element inside => List.cons_subset.mpr ⟨here, among⟩
          ((insertSorted_perm less first sorted).subset inside)
  have whole := folded elements [] (List.Subset.refl _) (List.nil_subset _)
  rw [List.map_nil] at whole
  simp only [sort, whole, List.map_reverse]

theorem best?_map {better : α → α → Bool} {better' : β → β → Bool} {elements : List α}
    (agree : ∀ a ∈ elements, ∀ b ∈ elements, better' (change a) (change b) = better a b)
    : best? better' (elements.map change) = (best? better elements).map change := by
  cases elements with
  | nil => rfl
  | cons first rest =>
      have folded (later : List α) (best : α) (laters : later ⊆ first :: rest)
          (among : best ∈ first :: rest)
          : (later.map change).foldl
              (fun best element => if better' element best then element else best) (change best) =
                change (later.foldl
                  (fun best element => if better element best then element else best) best) := by
        induction later generalizing best with
        | nil => rfl
        | cons next later ih =>
            obtain ⟨here, rests⟩ := List.cons_subset.mp laters
            rw [List.map_cons, List.foldl_cons, List.foldl_cons, agree next here best among]
            split
            · exact ih next rests here
            · exact ih best rests among
      exact congrArg some (folded rest first (List.subset_cons_self first rest) List.mem_cons_self)

end Elements

section Sorting

variable {α : Type} {less : α → α → Bool} {elements sorted : List α}

/-- (Consistent less elements) says that the order of some elements is consistent: of two of them
one is not less, and so is a third one that is not less than that.
-/
structure Consistent (less : α → α → Bool) (elements : List α) : Prop where
  asymmetric : ∀ a ∈ elements, ∀ b ∈ elements, less a b = true → less b a = false
  transitive : ∀ a ∈ elements, ∀ b ∈ elements, ∀ c ∈ elements,
    less b a = false → less c b = false → less c a = false

/-- (Sorts less elements sorted) says that a sequence has the same elements as another one in
ascending order, where two of them stand as they did unless the later one is less.
-/
structure Sorts (less : α → α → Bool) (elements sorted : List α) : Prop where
  perm : sorted.Perm elements
  ascending : sorted.Pairwise fun a b => less b a = false
  stable : ∀ a b, less b a = false → [a, b].Sublist elements → [a, b].Sublist sorted

theorem Consistent.subset {more : List α} (consistent : Consistent less more)
    (among : elements ⊆ more)
    : Consistent less elements where
  asymmetric a here b there := consistent.asymmetric a (among here) b (among there)
  transitive a first b second c third :=
    consistent.transitive a (among first) b (among second) c (among third)

/-- A consistent order is consistent the other way round. -/
theorem Consistent.flip {greater : α → α → Bool} (consistent : Consistent less elements)
    (agree : ∀ a ∈ elements, ∀ b ∈ elements, greater a b = less b a)
    : Consistent greater elements where
  asymmetric a inA b inB := by
    rw [agree a inA b inB, agree b inB a inA]
    exact consistent.asymmetric b inB a inA
  transitive a inA b inB c inC first second := by
    rw [agree b inB a inA] at first
    rw [agree c inC b inB] at second
    rw [agree c inC a inA]
    exact consistent.transitive c inC b inB a inA second first

/-- An element is put behind those that it is less than, and before the next one, by induction over
the elements that are there.
-/
theorem insertSorted_eq (less : α → α → Bool) (element : α) (sorted : List α)
    : ∃ greater rest, sorted = greater ++ rest
        ∧ insertSorted less element sorted = greater ++ element :: rest
        ∧ (∀ last ∈ greater, less element last = true)
        ∧ ∀ next ∈ rest.head?, less element next = false := by
  induction sorted with
  | nil => exact ⟨[], [], rfl, rfl, by simp, by simp⟩
  | cons last rest ih =>
      by_cases before : less element last = true
      · obtain ⟨greater, others, rfl, inserted, first, next⟩ := ih
        refine ⟨last :: greater, others, rfl, ?_, List.forall_mem_cons.mpr ⟨before, first⟩, next⟩
        rw [insertSorted, if_pos before, inserted, List.cons_append]
      · refine ⟨[], last :: rest, rfl, ?_, by simp, by simpa using before⟩
        rw [insertSorted, if_neg before, List.nil_append]

/-- Putting an element into a sequence that is sorted from last to first makes the element the last
one of the sorted elements.
-/
theorem Sorts.insert {element : α} (sorts : Sorts less elements sorted.reverse)
    (consistent : Consistent less (elements ++ [element]))
    : Sorts less (elements ++ [element]) (insertSorted less element sorted).reverse := by
  obtain ⟨greater, rest, rfl, inserted, first, next⟩ := insertSorted_eq less element sorted
  have among : ∀ other ∈ greater ++ rest, other ∈ elements ++ [element] := fun other member =>
    List.mem_append_left _ (sorts.perm.subset (List.mem_reverse.mpr member))
  have new : element ∈ elements ++ [element] := by simp
  have descending := List.pairwise_reverse.mp sorts.ascending
  obtain ⟨descendingFirst, descendingRest, between⟩ := List.pairwise_append.mp descending
  -- All elements behind the new one are no greater, since the next one is not.
  have notLess : ∀ other ∈ rest, less element other = false := by
    intro other member
    cases rest with
    | nil => exact nomatch member
    | cons next' rest =>
        have here := next next' rfl
        rcases List.mem_cons.mp member with rfl | later
        · exact here
        · exact consistent.transitive other (among _ (by simp [later])) next' (among _ (by simp))
            element new ((List.pairwise_cons.mp descendingRest).1 other later) here
  have kept : (greater ++ rest).Sublist (greater ++ element :: rest) :=
    (List.sublist_cons_self element rest).append_left greater
  rw [inserted]
  refine ⟨?_, List.pairwise_reverse.mpr ?_, fun a b order apart => ?_⟩
  · refine (List.reverse_perm _).trans (List.perm_middle.trans ?_)
    exact (((List.reverse_perm _).symm.trans sorts.perm).cons element).trans
      (List.perm_append_singleton element elements).symm
  · refine List.pairwise_append.mpr ⟨descendingFirst,
      List.pairwise_cons.mpr ⟨notLess, descendingRest⟩, fun last member other later => ?_⟩
    rcases List.mem_cons.mp later with rfl | later
    · exact consistent.asymmetric other new last (among last (by simp [member]))
        (first last member)
    · exact between last member other later
  · obtain ⟨front, back, split, inFront, inBack⟩ := List.sublist_append_iff.mp apart
    rcases List.sublist_singleton.mp inBack with rfl | rfl
    · rw [List.append_nil] at split
      exact (sorts.stable a b order (split ▸ inFront)).trans (List.reverse_sublist.mpr kept)
    · -- The later of the two is the new one, and the earlier one is not less than it.
      obtain ⟨one, same⟩ := List.append_inj' (show [a] ++ [b] = front ++ [element] from split) rfl
      obtain rfl := one.symm
      obtain rfl := List.singleton_inj.mp same
      have member : a ∈ greater ++ rest := by
        have earlier := sorts.perm.symm.subset (inFront.subset (List.mem_singleton_self a))
        exact List.mem_reverse.mp earlier
      have behind : a ∈ rest := by
        refine (List.mem_append.mp member).resolve_left fun before => ?_
        exact Bool.false_ne_true (order.symm.trans (first a before))
      have pair : [b, a].Sublist (greater ++ b :: rest) :=
        ((List.singleton_sublist.mpr behind).cons_cons b).trans (List.sublist_append_right _ _)
      exact List.reverse_sublist.mpr pair

/-- Sorting keeps the order of equal elements, by induction over those that are sorted in. -/
theorem sort_sorts (consistent : Consistent less elements)
    : Sorts less elements (sort less elements) := by
  have folded (rest elements sorted : List α) (sorts : Sorts less elements sorted.reverse)
      (consistent : Consistent less (elements ++ rest))
      : Sorts less (elements ++ rest)
          (rest.foldl (fun sorted element => insertSorted less element sorted) sorted).reverse := by
    induction rest generalizing elements sorted with
    | nil => simpa using sorts
    | cons first rest ih =>
        rw [List.append_cons] at consistent ⊢
        exact ih _ _ (sorts.insert (consistent.subset (List.subset_append_left _ _))) consistent
  have empty : Sorts less [] ([] : List α).reverse := ⟨.refl _, .nil, by simp⟩
  exact folded elements [] [] empty consistent

/-- No element is less than itself. -/
theorem Consistent.irreflexive (consistent : Consistent less elements) {element : α}
    (inside : element ∈ elements)
    : less element element = false := by
  cases itself : less element element with
  | false => rfl
  | true => exact itself ▸ consistent.asymmetric element inside element inside itself

/-- There is a best one of some elements. -/
theorem exists_best? (better : α → α → Bool) (some : elements ≠ [])
    : ∃ best, best? better elements = .some best := by
  cases elements with
  | nil => exact absurd rfl some
  | cons first rest => exact ⟨_, rfl⟩

/-- The best element is one of them, and none is better, by induction over those that are still to
be compared with the best one so far.
-/
theorem best?_best {better : α → α → Bool} {best : α} (consistent : Consistent better elements)
    (found : best? better elements = some best)
    : best ∈ elements ∧ ∀ element ∈ elements, better element best = false := by
  have folded (rest passed : List α) (chosen : α) (consistent : Consistent better (passed ++ rest))
      (among : chosen ∈ passed) (unsurpassed : ∀ element ∈ passed, better element chosen = false)
      : let last :=
          rest.foldl (fun best element => if better element best then element else best) chosen
        last ∈ passed ++ rest ∧ ∀ element ∈ passed ++ rest, better element last = false := by
    induction rest generalizing passed chosen with
    | nil => simpa using ⟨among, unsurpassed⟩
    | cons next rest ih =>
        have here : chosen ∈ passed ++ next :: rest := List.mem_append_left _ among
        have new : next ∈ passed ++ next :: rest := by simp
        rw [List.foldl_cons]
        rw [List.append_cons] at consistent here new ⊢
        split
        · next improves =>
            refine ih _ next consistent (by simp) fun element member => ?_
            rcases List.mem_append.mp member with earlier | same
            · -- What the earlier best one surpasses is surpassed by a better one.
              exact consistent.transitive next new chosen here element
                (List.mem_append_left rest member)
                (consistent.asymmetric next new chosen here improves) (unsurpassed element earlier)
            · rw [List.mem_singleton.mp same]
              exact consistent.irreflexive new
        · next worse =>
            refine ih _ chosen consistent (List.mem_append_left _ among) fun element member => ?_
            rcases List.mem_append.mp member with earlier | same
            · exact unsurpassed element earlier
            · rw [List.mem_singleton.mp same]
              exact Bool.eq_false_iff.mpr worse
  cases elements with
  | nil => cases found
  | cons first rest =>
      cases found
      refine folded rest [first] first consistent (List.mem_singleton_self first) ?_
      intro element member
      rw [List.mem_singleton.mp member]
      exact consistent.irreflexive (.head rest)

end Sorting

end BuildScript.Sequence
