import Johnny.Lib.OrderedPartition
import Johnny.Memory.Forgetting
import Mathlib.Data.List.Induction

/-!
# What a merge pass leaves

The groups of near-duplicates partition the facts in the order of their ids. The earliest
fact of each group survives with what the group knew; the survivors are no duplicates of
each other, so that a second pass finds nothing to merge.
-/
namespace Johnny
namespace MemoryDecay
variable {K : Type}

/-! ### The groups -/

section groups
variable {similar : SemanticFactRow K → SemanticFactRow K → Bool}

/-- A fact joins the first group whose earliest member it resembles, or seeds its own. -/
theorem joinGroup_cases (similar : SemanticFactRow K → SemanticFactRow K → Bool)
    (fact : SemanticFactRow K) (groups : List (List (SemanticFactRow K))) :
    (∃ before group after, groups = before ++ group :: after ∧
      group.head?.any (similar fact) = true ∧
      joinGroup similar fact groups = before ++ (group ++ [fact]) :: after) ∨
    ((∀ group ∈ groups, group.head?.any (similar fact) = false) ∧
      joinGroup similar fact groups = groups ++ [[fact]]) := by
  induction groups with
  | nil => exact .inr ⟨by simp, rfl⟩
  | cons group groups ih =>
      unfold joinGroup
      by_cases near : group.head?.any (similar fact) = true
      · rw [if_pos near]
        exact .inl ⟨[], group, groups, rfl, near, rfl⟩
      · rw [if_neg near]
        rcases ih with ⟨before, near, after, rfl, filled, joined⟩ | ⟨far, seeded⟩
        · exact .inl ⟨group :: before, near, after, rfl, filled, by rw [joined, List.cons_append]⟩
        · refine .inr ⟨List.forall_mem_cons.mpr ⟨Bool.eq_false_iff.mpr near, far⟩, ?_⟩
          rw [seeded, List.cons_append]

/-- No later representative resembles an earlier one. -/
def Separated (similar : SemanticFactRow K → SemanticFactRow K → Bool)
    (representatives : List (SemanticFactRow K)) : Prop :=
  representatives.Pairwise fun earlier later => similar later earlier = false

/-- What the groups of the facts seen so far are. -/
structure Grouped (similar : SemanticFactRow K → SemanticFactRow K → Bool)
    (seen : List (SemanticFactRow K)) (groups : List (List (SemanticFactRow K))) : Prop where
  partition : OrderedPartition seen groups
  near : ∀ group ∈ groups, ∀ first rest, group = first :: rest →
    ∀ other ∈ rest, similar other first = true
  separated : Separated similar (groups.filterMap List.head?)

theorem Grouped.snoc {seen : List (SemanticFactRow K)}
    {groups : List (List (SemanticFactRow K))} (grouped : Grouped similar seen groups)
    (fact : SemanticFactRow K) :
    Grouped similar (seen ++ [fact]) (joinGroup similar fact groups) := by
  rcases joinGroup_cases similar fact groups with
    ⟨before, group, after, rfl, near, joined⟩ | ⟨far, seeded⟩
  · rw [joined]
    have filled : group ≠ [] := by
      rintro rfl
      cases near
    refine ⟨grouped.partition.join fact, ?_, ?_⟩
    · intro other member first rest split
      have old {g : List (SemanticFactRow K)} (inside : g ∈ before ++ group :: after)
          (split : g = first :: rest) := grouped.near g inside first rest split
      rcases List.mem_append.mp member with earlier | here
      · exact old (List.mem_append_left _ earlier) split
      · rcases List.mem_cons.mp here with rfl | later
        · cases group with
          | nil => exact absurd rfl filled
          | cons seed others =>
              obtain ⟨rfl, rfl⟩ := List.cons.inj split
              refine List.forall_mem_append.mpr ⟨?_, List.forall_mem_singleton.mpr near⟩
              exact grouped.near (seed :: others)
                (List.mem_append_right _ List.mem_cons_self) _ _ rfl
        · exact old (List.mem_append_right _ (List.mem_cons_of_mem _ later)) split
    · have same := grouped.separated
      rw [List.filterMap_append, List.filterMap_cons] at same ⊢
      rwa [List.head?_append_of_ne_nil _ filled]
  · rw [seeded]
    refine ⟨grouped.partition.seed fact, ?_, ?_⟩
    · intro group member first rest split
      rcases List.mem_append.mp member with old | new
      · exact grouped.near group old first rest split
      · rw [List.mem_singleton.mp new] at split
        obtain ⟨-, rfl⟩ := List.cons.inj split
        exact List.forall_mem_nil _
    rw [List.filterMap_append]
    refine List.pairwise_append.mpr ⟨grouped.separated, List.pairwise_singleton _ _, ?_⟩
    intro earlier member later new
    obtain ⟨group, inside, first⟩ := List.mem_filterMap.mp member
    have apart := far group inside
    rw [first] at apart
    rw [List.mem_singleton.mp new]
    exact apart

theorem grouped_foldl (facts : List (SemanticFactRow K)) :
    Grouped similar facts (facts.foldl (fun groups fact => joinGroup similar fact groups) []) := by
  induction facts using List.reverseRecOn with
  | nil => exact ⟨.nil, List.forall_mem_nil _, List.Pairwise.nil⟩
  | append_singleton facts fact ih =>
      rw [List.foldl_append]
      exact ih.snoc fact

/-- Facts that are no duplicates of each other stay on their own. -/
theorem foldl_joinGroup_of_separated {facts : List (SemanticFactRow K)}
    (separated : Separated similar facts) :
    facts.foldl (fun groups fact => joinGroup similar fact groups) [] = facts.map ([·]) := by
  induction facts using List.reverseRecOn with
  | nil => rfl
  | append_singleton facts fact ih =>
      obtain ⟨apart, -, far⟩ := List.pairwise_append.mp separated
      rw [List.foldl_append, ih apart, List.map_append, List.foldl_cons, List.foldl_nil]
      rcases joinGroup_cases similar fact (facts.map ([·])) with
        ⟨before, group, after, split, near, -⟩ | ⟨-, seeded⟩
      · have member : group ∈ facts.map ([·]) := by
          rw [split]
          exact List.mem_append_right _ List.mem_cons_self
        obtain ⟨earlier, inside, rfl⟩ := List.mem_map.mp member
        rw [List.head?_cons, Option.any_some, far earlier inside fact List.mem_cons_self] at near
        cases near
      · exact seeded

end groups

/-! ### One group -/

section survivors
variable [LinearOrder K]

/-- The fact a group is merged into. -/
def survivorOf : List (SemanticFactRow K) → Option (SemanticFactRow K)
  | [] => none
  | [fact] => some fact
  | survivor :: dup :: dups => some { survivor with
      sourceEpisodeIds :=
        (((survivor :: dup :: dups).flatMap SemanticFactRow.sourceEpisodeIds).dedup).insertionSort
          (· ≤ ·)
      confidence :=
        (dup :: dups).foldl (fun c dup => max c dup.confidence) survivor.confidence }

/-- What the merge of a group makes of a fact of the table. -/
def settle (group : List (SemanticFactRow K)) (fact : SemanticFactRow K) :
    Option (SemanticFactRow K) :=
  match group with
  | survivor :: dup :: dups =>
    if fact.id ∈ (dup :: dups).map SemanticFactRow.id then none
    else if fact.id = survivor.id then survivorOf (survivor :: dup :: dups)
    else some fact
  | _ => some fact

theorem mergeGroup_facts (s : MemoryStore K) (group : List (SemanticFactRow K)) :
    (mergeGroup s group).facts = s.facts.filterMap (settle group) := by
  match group with
  | [] => exact (List.filterMap_some (l := s.facts)).symm
  | [fact] => exact (List.filterMap_some (l := s.facts)).symm
  | survivor :: dup :: dups =>
      simp only [mergeGroup, if_neg (List.cons_ne_nil dup dups)]
      rw [← List.filterMap_eq_map, List.filterMap_filter]
      refine List.filterMap_congr fun fact _ => ?_
      simp only [settle, Function.comp_apply]
      by_cases merged : fact.id ∈ (dup :: dups).map SemanticFactRow.id
      · rw [decide_eq_true merged, if_pos merged]
        rfl
      · rw [decide_eq_false merged, if_neg merged, Bool.not_false, if_pos rfl]
        split <;> rfl

theorem settle_of_other {group : List (SemanticFactRow K)} {fact : SemanticFactRow K}
    (other : fact.id ∉ group.map SemanticFactRow.id) : settle group fact = some fact := by
  match group with
  | [] => rfl
  | [_] => rfl
  | survivor :: dup :: dups =>
      rw [List.map_cons, List.mem_cons, not_or] at other
      simp only [settle, if_neg other.1, if_neg other.2]

theorem settle_of_survivor {fact : SemanticFactRow K} {dups : List (SemanticFactRow K)}
    (distinct : ((fact :: dups).map SemanticFactRow.id).Nodup) :
    settle (fact :: dups) fact = survivorOf (fact :: dups) := by
  cases dups with
  | nil => rfl
  | cons dup dups => simp only [settle, if_neg (List.nodup_cons.mp distinct).1, if_pos]

theorem settle_of_dup {survivor fact : SemanticFactRow K} {dups : List (SemanticFactRow K)}
    (member : fact ∈ dups) : settle (survivor :: dups) fact = none := by
  cases dups with
  | nil => cases member
  | cons dup dups => simp only [settle, if_pos (List.mem_map_of_mem member)]

theorem survivorOf_id {group : List (SemanticFactRow K)} {fact : SemanticFactRow K}
    (kept : survivorOf group = some fact) : group.head?.map SemanticFactRow.id = some fact.id := by
  match group with
  | [_] => cases kept; rfl
  | _ :: _ :: _ => cases kept; rfl

/-- The survivor is the earliest fact, with the provenance and the best confidence of all. -/
structure Survives (group : List (SemanticFactRow K)) (fact : SemanticFactRow K) : Prop where
  earliest : ∃ first dups, group = first :: dups ∧
    fact = { first with
      sourceEpisodeIds := fact.sourceEpisodeIds, confidence := fact.confidence }
  provenance : ∀ id, id ∈ fact.sourceEpisodeIds ↔ ∃ f ∈ group, id ∈ f.sourceEpisodeIds
  confident : ∃ f ∈ group, f.confidence = fact.confidence
  highest : ∀ f ∈ group, f.confidence ≤ fact.confidence

theorem foldl_max_spec (dups : List (SemanticFactRow K)) (c : K) :
    let top := dups.foldl (fun c dup => max c dup.confidence) c
    (c = top ∨ ∃ f ∈ dups, f.confidence = top) ∧ c ≤ top ∧ ∀ f ∈ dups, f.confidence ≤ top := by
  induction dups generalizing c with
  | nil => exact ⟨.inl rfl, le_rfl, by simp⟩
  | cons dup dups ih =>
      obtain ⟨reached, start, bound⟩ := ih (max c dup.confidence)
      refine ⟨?_, (le_max_left _ _).trans start,
        List.forall_mem_cons.mpr ⟨(le_max_right _ _).trans start, bound⟩⟩
      rcases reached with first | ⟨f, inside, same⟩
      · rcases max_choice c dup.confidence with left | right
        · exact .inl (left.symm.trans first)
        · exact .inr ⟨dup, List.mem_cons_self, right.symm.trans first⟩
      · exact .inr ⟨f, List.mem_cons_of_mem _ inside, same⟩

theorem survivorOf_survives {group : List (SemanticFactRow K)} {fact : SemanticFactRow K}
    (kept : survivorOf group = some fact) : Survives group fact := by
  match group with
  | [_] =>
      cases kept
      exact ⟨⟨fact, [], rfl, rfl⟩, by simp, ⟨fact, List.mem_cons_self, rfl⟩, by simp⟩
  | survivor :: dup :: dups =>
      obtain ⟨reached, start, bound⟩ := foldl_max_spec (dup :: dups) survivor.confidence
      cases kept
      refine ⟨⟨survivor, dup :: dups, rfl, rfl⟩, fun id => ?_, ?_,
        List.forall_mem_cons.mpr ⟨start, bound⟩⟩
      · rw [List.mem_insertionSort, List.mem_dedup, List.mem_flatMap]
      · rcases reached with first | ⟨f, inside, same⟩
        · exact ⟨survivor, List.mem_cons_self, first⟩
        · exact ⟨f, List.mem_cons_of_mem _ inside, same⟩

/-! ### All groups -/

/-- What the merges of all groups make of a fact. -/
def settleAll : List (List (SemanticFactRow K)) → SemanticFactRow K → Option (SemanticFactRow K)
  | [], fact => some fact
  | group :: groups, fact => (settle group fact).bind (settleAll groups)

theorem foldl_mergeGroup_facts (groups : List (List (SemanticFactRow K))) (s : MemoryStore K) :
    (groups.foldl mergeGroup s).facts = s.facts.filterMap (settleAll groups) := by
  induction groups generalizing s with
  | nil => exact (List.filterMap_some (l := s.facts)).symm
  | cons group groups ih =>
      rw [List.foldl_cons, ih, mergeGroup_facts, List.filterMap_filterMap]
      rfl

theorem settle_id {group : List (SemanticFactRow K)} {fact kept : SemanticFactRow K}
    (h : settle group fact = some kept) : kept.id = fact.id := by
  match group with
  | [] => cases h; rfl
  | [_] => cases h; rfl
  | survivor :: dup :: dups =>
      simp only [settle] at h
      split at h
      · cases h
      · split at h
        next same =>
          exact (Option.some.inj (survivorOf_id h)).symm.trans same.symm
        · cases h
          rfl

theorem settleAll_of_other {groups : List (List (SemanticFactRow K))} {fact : SemanticFactRow K}
    (other : fact.id ∉ groups.flatten.map SemanticFactRow.id) :
    settleAll groups fact = some fact := by
  induction groups with
  | nil => rfl
  | cons group groups ih =>
      rw [List.flatten_cons, List.map_append, List.mem_append, not_or] at other
      rw [settleAll, settle_of_other other.1, Option.bind_some, ih other.2]

/-- Only the merge of its own group touches a fact. -/
theorem settleAll_of_mem {groups : List (List (SemanticFactRow K))}
    {group : List (SemanticFactRow K)} {fact : SemanticFactRow K}
    (distinct : (groups.flatten.map SemanticFactRow.id).Nodup) (inside : group ∈ groups)
    (member : fact ∈ group) : settleAll groups fact = settle group fact := by
  induction groups with
  | nil => cases inside
  | cons first groups ih =>
      rw [List.flatten_cons, List.map_append] at distinct
      obtain ⟨-, rest, apart⟩ := List.nodup_append.mp distinct
      rw [settleAll]
      rcases List.mem_cons.mp inside with rfl | inside
      · rcases settled : settle group fact with _ | kept
        · rfl
        · refine settleAll_of_other fun again => ?_
          exact apart _ (List.mem_map_of_mem member) _ again (settle_id settled).symm
      · rw [settle_of_other, Option.bind_some, ih rest inside]
        intro again
        have here : fact.id ∈ groups.flatten.map SemanticFactRow.id :=
          List.mem_map_of_mem (List.mem_flatten_of_mem inside member)
        exact apart _ again _ here rfl

omit [LinearOrder K] in
theorem nodup_of_mem {groups : List (List (SemanticFactRow K))} {group : List (SemanticFactRow K)}
    (distinct : (groups.flatten.map SemanticFactRow.id).Nodup) (inside : group ∈ groups) :
    (group.map SemanticFactRow.id).Nodup :=
  ((List.sublist_flatten_of_mem inside).map SemanticFactRow.id).nodup distinct

theorem settleAll_head {groups : List (List (SemanticFactRow K))} {fact : SemanticFactRow K}
    {dups : List (SemanticFactRow K)} (distinct : (groups.flatten.map SemanticFactRow.id).Nodup)
    (inside : fact :: dups ∈ groups) : settleAll groups fact = survivorOf (fact :: dups) := by
  rw [settleAll_of_mem distinct inside List.mem_cons_self,
    settle_of_survivor (nodup_of_mem distinct inside)]

/-- After the merges there is one fact for each group, in order. -/
theorem filterMap_settleAll {facts : List (SemanticFactRow K)}
    {groups : List (List (SemanticFactRow K))} (partition : OrderedPartition facts groups)
    (distinct : (facts.map SemanticFactRow.id).Nodup) :
    facts.filterMap (settleAll groups) = groups.filterMap survivorOf := by
  have grouped : (groups.flatten.map SemanticFactRow.id).Nodup :=
    (partition.whole.map SemanticFactRow.id).nodup_iff.mpr distinct
  rw [partition.filterMap_heads (List.Nodup.of_map _ distinct)]
  · refine List.filterMap_congr fun group inside => ?_
    cases group with
    | nil => rfl
    | cons fact dups => exact settleAll_head grouped inside
  · intro fact member later
    obtain ⟨group, inside, here⟩ := List.mem_flatten.mp (partition.whole.mem_iff.mpr member)
    rw [settleAll_of_mem grouped inside here]
    cases group with
    | nil => cases here
    | cons first dups =>
        rcases List.mem_cons.mp here with rfl | dup
        · exact absurd ((List.mem_filterMap (f := List.head?)).mpr ⟨_, inside, rfl⟩) later
        · exact settle_of_dup dup

theorem forall₂_survives {groups : List (List (SemanticFactRow K))}
    (filled : ∀ group ∈ groups, group ≠ []) :
    List.Forall₂ Survives groups (groups.filterMap survivorOf) := by
  induction groups with
  | nil => exact .nil
  | cons group groups ih =>
      obtain ⟨first, rest⟩ := List.forall_mem_cons.mp filled
      obtain ⟨fact, kept⟩ : ∃ fact, survivorOf group = some fact := by
        match group, first with
        | [_], _ => exact ⟨_, rfl⟩
        | _ :: _ :: _, _ => exact ⟨_, rfl⟩
      rw [List.filterMap_cons_some kept]
      exact .cons (survivorOf_survives kept) (ih rest)

theorem survivors_eq_heads {groups : List (List (SemanticFactRow K))}
    {facts : List (SemanticFactRow K)} (survive : List.Forall₂ Survives groups facts)
    {γ : Type} (f : SemanticFactRow K → γ)
    (same : ∀ fact ids confidence, f { fact with
      sourceEpisodeIds := ids, confidence := confidence } = f fact) :
    facts.map f = (groups.filterMap List.head?).map f := by
  induction survive with
  | nil => rfl
  | cons first _ ih =>
      obtain ⟨earliest, dups, rfl, kept⟩ := first.earliest
      rw [List.map_cons, ih, kept, same]
      rfl

/-- The survivors know the episodes that the facts of the groups did. -/
theorem survivors_provenance {groups : List (List (SemanticFactRow K))}
    {facts : List (SemanticFactRow K)} (survive : List.Forall₂ Survives groups facts) (id : ℕ) :
    id ∈ facts.flatMap SemanticFactRow.sourceEpisodeIds ↔
      id ∈ groups.flatten.flatMap SemanticFactRow.sourceEpisodeIds := by
  induction survive with
  | nil => rfl
  | cons first _ ih =>
      rw [List.flatMap_cons, List.flatten_cons, List.flatMap_append, List.mem_append,
        List.mem_append, ih, first.provenance, ← List.mem_flatMap]

theorem length_flatten_add_tails {α : Type} {groups : List (List α)}
    (filled : ∀ group ∈ groups, group ≠ []) :
    (groups.map fun group => group.tail.length).sum + groups.length = groups.flatten.length := by
  induction groups with
  | nil => rfl
  | cons group groups ih =>
      obtain ⟨first, rest⟩ := List.forall_mem_cons.mp filled
      have some := List.length_pos_iff.mpr first
      have more := ih rest
      simp only [List.length_tail] at more
      simp only [List.map_cons, List.sum_cons, List.length_cons, List.flatten_cons,
        List.length_append, List.length_tail]
      omega

end survivors

/-! ### The pass -/

variable [Field K] [LinearOrder K]

def nearDuplicate (d : MemoryDecay K) (fact representative : SemanticFactRow K) : Bool :=
  decide (d.mergeThreshold ≤ cosineSimilarity d.sqrt fact.embedding representative.embedding)

theorem duplicateFactGroups_grouped (d : MemoryDecay K) (facts : List (SemanticFactRow K)) :
    Grouped d.nearDuplicate facts (d.duplicateFactGroups facts) :=
  grouped_foldl facts

/-- A pass over facts in the order of their ids that left `t` and reported `count`. -/
structure Merged (d : MemoryDecay K) (s t : MemoryStore K) (count : ℕ) : Prop where
  partition : OrderedPartition s.facts (d.duplicateFactGroups s.facts)
  /-- Every fact that is merged resembles the one it is merged into. -/
  near : ∀ group ∈ d.duplicateFactGroups s.facts, ∀ first rest, group = first :: rest →
    ∀ other ∈ rest, d.mergeThreshold ≤ cosineSimilarity d.sqrt other.embedding first.embedding
  survivors : List.Forall₂ Survives (d.duplicateFactGroups s.facts) t.facts
  separated : t.facts.Pairwise fun earlier later =>
    cosineSimilarity d.sqrt later.embedding earlier.embedding < d.mergeThreshold
  provenance : ∀ id, id ∈ t.consolidatedSourceIds ↔ id ∈ s.consolidatedSourceIds
  counted : count + t.facts.length = s.facts.length
  settled : d.mergeFacts t = (t, 0)

omit [Field K] [LinearOrder K] in
theorem insertionSort_of_ordered {facts : List (SemanticFactRow K)}
    (ordered : (facts.map SemanticFactRow.id).Pairwise (· < ·)) :
    facts.insertionSort (fun a b => a.id ≤ b.id) = facts :=
  (List.pairwise_map.mp ordered |>.imp fun less => less.le).insertionSort_eq

/-- Facts that are no duplicates of each other are left as they are. -/
theorem mergeFacts_of_separated {d : MemoryDecay K} {t : MemoryStore K}
    (ordered : (t.facts.map SemanticFactRow.id).Pairwise (· < ·))
    (separated : Separated d.nearDuplicate t.facts) : d.mergeFacts t = (t, 0) := by
  have alone : d.duplicateFactGroups t.facts = t.facts.map ([·]) :=
    foldl_joinGroup_of_separated separated
  have same (facts : List (SemanticFactRow K)) : (facts.map ([·])).foldl mergeGroup t = t := by
    induction facts with
    | nil => rfl
    | cons fact facts ih => exact ih
  have none (facts : List (SemanticFactRow K)) :
      ((facts.map ([·])).map fun group => group.tail.length).sum = 0 := by
    induction facts with
    | nil => rfl
    | cons fact facts ih => simpa using ih
  unfold mergeFacts
  dsimp only
  rw [insertionSort_of_ordered ordered, alone, same, none]

/-- In each group the earliest fact survives with what the group knew; the survivors are apart,
nothing of the provenance is lost, and a second pass changes nothing. -/
theorem mergeFacts_merged (d : MemoryDecay K) (s : MemoryStore K)
    (ordered : (s.facts.map SemanticFactRow.id).Pairwise (· < ·)) :
    d.Merged s (d.mergeFacts s).1 (d.mergeFacts s).2 := by
  have grouped := duplicateFactGroups_grouped d s.facts
  have distinct : (s.facts.map SemanticFactRow.id).Nodup := ordered.imp fun less => less.ne
  have facts : (d.mergeFacts s).1.facts =
      (d.duplicateFactGroups s.facts).filterMap survivorOf := by
    unfold mergeFacts
    rw [insertionSort_of_ordered ordered, foldl_mergeGroup_facts]
    exact filterMap_settleAll grouped.partition distinct
  have survive : List.Forall₂ Survives (d.duplicateFactGroups s.facts) (d.mergeFacts s).1.facts :=
    facts ▸ forall₂_survives grouped.partition.filled
  have separated : Separated d.nearDuplicate (d.mergeFacts s).1.facts := by
    have embeddings := survivors_eq_heads survive SemanticFactRow.embedding fun _ _ _ => rfl
    have apart : ((d.mergeFacts s).1.facts.map SemanticFactRow.embedding).Pairwise
        fun earlier later => decide (d.mergeThreshold ≤ cosineSimilarity d.sqrt later earlier) =
          false := by
      rw [embeddings]
      exact List.pairwise_map.mpr grouped.separated
    exact List.pairwise_map.mp apart
  have still : ((d.mergeFacts s).1.facts.map SemanticFactRow.id).Pairwise (· < ·) := by
    rw [survivors_eq_heads survive SemanticFactRow.id fun _ _ _ => rfl]
    exact ordered.sublist (grouped.partition.byFirst.map _)
  refine ⟨grouped.partition, ?_, survive, ?_, ?_, ?_, mergeFacts_of_separated still separated⟩
  · intro group member first rest split other inside
    exact of_decide_eq_true (grouped.near group member first rest split other inside)
  · exact separated.imp fun apart => not_le.mp (of_decide_eq_false apart)
  · intro id
    refine (survivors_provenance survive id).trans ?_
    exact (grouped.partition.whole.flatMap_right SemanticFactRow.sourceEpisodeIds).mem_iff
  · have sum : (d.mergeFacts s).2 =
        ((d.duplicateFactGroups s.facts).map fun group => group.tail.length).sum := by
      unfold mergeFacts
      rw [insertionSort_of_ordered ordered]
    rw [sum, ← survive.length_eq, length_flatten_add_tails grouped.partition.filled,
      grouped.partition.whole.length_eq]

end MemoryDecay

/-! ### Two restatements and another fact -/

namespace KettleFacts

def boils : SemanticFactRow ℝ where
  id := 1
  subject := "kettle"
  predicate := "boils"
  object := "water"
  confidence := 1
  sourceEpisodeIds := [2]
  embedding := [1, 0]

def store : MemoryStore ℝ :=
  { facts := [boils, { boils with id := 2, object := "the water", sourceEpisodeIds := [1, 2] },
      { boils with id := 3, predicate := "is", object := "blue", embedding := [0, 1] }]
    nextFact := 4 }

end KettleFacts

open KettleFacts in
theorem kettle_facts_merged :
    (store.facts.map SemanticFactRow.id).Pairwise (· < ·) ∧
      OneMemory.decay.Merged store (OneMemory.decay.mergeFacts store).1
        (OneMemory.decay.mergeFacts store).2 :=
  ⟨by decide, MemoryDecay.mergeFacts_merged OneMemory.decay store (by decide)⟩

end Johnny
