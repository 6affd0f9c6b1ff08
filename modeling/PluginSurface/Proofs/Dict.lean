import Mathlib.Data.List.Forall2
import PluginSurface.Dict

/-!
# Dictionaries

Looking up after an insertion. None of it needs the keys to be in order, and
neither does the comparison of two dictionaries entry by entry.
-/

namespace PluginSurface.Dict

variable {Value : Type}

@[simp]
theorem find?_nil (key : String) : find? ([] : Dict Value) key = none := rfl

theorem find?_cons (first : String × Value) (rest : Dict Value)
    (key : String) :
    find? (first :: rest) key =
      if key = first.1 then some first.2 else find? rest key := by
  obtain ⟨name, held⟩ := first
  rw [find?, List.lookup_cons]
  by_cases same : key = name
  · simp [same]
  · simp [find?, beq_eq_false_iff_ne.mpr same, same]

theorem find?_insert (entries : Dict Value) (key other : String)
    (value : Value) :
    (entries.insert key value).find? other =
      if other = key then some value else entries.find? other := by
  induction entries with
  | nil =>
      simp [insert, find?_cons]
  | cons first rest inductionHypothesis =>
      obtain ⟨name, held⟩ := first
      unfold insert
      by_cases less : key < name
      · simp [less, find?_cons]
      · by_cases same : key = name
        · subst name
          rw [if_neg less, if_pos rfl]
          by_cases found : other = key <;> simp [found, find?_cons]
        · simp only [less, same, if_false, find?_cons, inductionHypothesis]
          by_cases found : other = key
          · simp [found, same]
          · simp [found]

@[simp]
theorem find?_insert_self (entries : Dict Value) (key : String)
    (value : Value) : (entries.insert key value).find? key = some value := by
  simp [find?_insert]

theorem find?_insert_other (entries : Dict Value) {key other : String}
    (different : other ≠ key) (value : Value) :
    (entries.insert key value).find? other = entries.find? other := by
  simp [find?_insert, different]

theorem mem_of_find? {entries : Dict Value} {key : String} {value : Value}
    (found : entries.find? key = some value) : (key, value) ∈ entries := by
  induction entries with
  | nil => cases found
  | cons first rest inductionHypothesis =>
      rw [find?_cons] at found
      split at found
      · next same =>
          cases found
          exact same ▸ List.mem_cons_self
      · exact List.mem_cons_of_mem _ (inductionHypothesis found)

theorem contains_eq (entries : Dict Value) (key : String) :
    entries.contains key = (entries.find? key).isSome := rfl

/-! ## Order -/

/-- Entries in increasing order of their keys. -/
def IsSorted (entries : Dict Value) : Prop :=
  entries.Pairwise fun first second => first.1 < second.1

theorem lt_of_not_lt {left right : String} (notLess : ¬ left < right)
    (different : left ≠ right) : right < left := by
  have atMost := String.not_lt.mp notLess
  rcases Decidable.em (right < left) with less | notGreater
  · exact less
  · exact absurd (String.le_antisymm (String.not_lt.mp notGreater) atMost)
      different

theorem mem_insert {entries : Dict Value} {key : String} {value : Value}
    {entry : String × Value} (member : entry ∈ entries.insert key value) :
    entry = (key, value) ∨ entry ∈ entries := by
  induction entries with
  | nil => exact .inl (List.mem_singleton.mp member)
  | cons first rest inductionHypothesis =>
      unfold insert at member
      split at member
      · exact List.mem_cons.mp member
      · split at member
        · exact (List.mem_cons.mp member).imp_right (List.mem_cons_of_mem _)
        · rcases List.mem_cons.mp member with rfl | inRest
          · exact .inr List.mem_cons_self
          · exact (inductionHypothesis inRest).imp_right
              (List.mem_cons_of_mem _)

theorem IsSorted.insert {entries : Dict Value} (sorted : entries.IsSorted)
    (key : String) (value : Value) : (entries.insert key value).IsSorted := by
  induction entries with
  | nil => exact List.pairwise_singleton _ _
  | cons first rest inductionHypothesis =>
      obtain ⟨least, restSorted⟩ := List.pairwise_cons.mp sorted
      unfold Dict.insert
      split
      · next less =>
          refine List.pairwise_cons.mpr ⟨?_, sorted⟩
          refine List.forall_mem_cons.mpr ⟨less, fun entry member => ?_⟩
          exact String.lt_trans less (least entry member)
      · next notLess =>
          split
          · next same =>
              subst same
              exact List.pairwise_cons.mpr ⟨least, restSorted⟩
          · next different =>
              refine List.pairwise_cons.mpr ⟨fun entry member => ?_,
                inductionHypothesis restSorted⟩
              rcases mem_insert member with rfl | inRest
              · exact lt_of_not_lt notLess different
              · exact least entry inRest

/-- Storing what is held already changes nothing. -/
theorem IsSorted.insert_held {entries : Dict Value} (sorted : entries.IsSorted)
    {key : String} {value : Value} (held : entries.find? key = some value) :
    entries.insert key value = entries := by
  induction entries with
  | nil => cases held
  | cons first rest inductionHypothesis =>
      obtain ⟨name, firstValue⟩ := first
      obtain ⟨least, restSorted⟩ := List.pairwise_cons.mp sorted
      rw [find?_cons] at held
      by_cases same : key = name
      · subst same
        rw [if_pos rfl] at held
        cases held
        simp [Dict.insert]
      · rw [if_neg same] at held
        have greater : name < key := least _ (mem_of_find? held)
        unfold Dict.insert
        rw [if_neg (String.lt_asymm greater), if_neg same,
          inductionHypothesis restSorted held]

/-- An entry whose key is greater than all others stands at the end. -/
theorem insert_of_greatest {entries : Dict Value} {key : String}
    (greatest : ∀ entry ∈ entries, entry.1 < key) (value : Value) :
    entries.insert key value = entries ++ [(key, value)] := by
  induction entries with
  | nil => rfl
  | cons first rest inductionHypothesis =>
      obtain ⟨less, others⟩ := List.forall_mem_cons.mp greatest
      have different : key ≠ first.1 := by
        rintro rfl
        exact String.lt_irrefl _ less
      unfold insert
      rw [if_neg (String.lt_asymm less), if_neg different,
        inductionHypothesis others]
      rfl

theorem ofEntries_of_isSorted {entries : Dict Value}
    (sorted : entries.IsSorted) : ofEntries entries = entries := by
  suffices ∀ earlier : Dict Value, (earlier ++ entries).IsSorted →
      entries.foldl (fun dict entry => dict.insert entry.1 entry.2) earlier =
        earlier ++ entries from this [] sorted
  clear sorted
  induction entries with
  | nil => simp
  | cons entry rest inductionHypothesis =>
      intro earlier sorted
      have greatest := (List.pairwise_append.mp sorted).2.2
      rw [List.foldl_cons, insert_of_greatest fun other member =>
        greatest other member entry List.mem_cons_self]
      rw [List.append_cons] at sorted
      exact (inductionHypothesis _ sorted).trans (List.append_cons _ _ _).symm

theorem isSorted_ofEntries (entries : List (String × Value)) :
    (ofEntries entries).IsSorted := by
  suffices ∀ earlier : Dict Value, earlier.IsSorted →
      (entries.foldl (fun dict entry => dict.insert entry.1 entry.2)
        earlier).IsSorted from this [] .nil
  induction entries with
  | nil => exact fun earlier sorted => sorted
  | cons entry rest inductionHypothesis =>
      exact fun earlier sorted =>
        inductionHypothesis _ (sorted.insert entry.1 entry.2)

theorem mem_of_mem_ofEntries {entries : List (String × Value)}
    {entry : String × Value} (member : entry ∈ ofEntries entries) :
    entry ∈ entries := by
  suffices ∀ earlier : Dict Value,
      entry ∈ entries.foldl
          (fun dict entry => dict.insert entry.1 entry.2) earlier →
        entry ∈ entries ∨ entry ∈ earlier by
    rcases this [] member with inEntries | none
    · exact inEntries
    · cases none
  clear member
  induction entries with
  | nil => exact fun earlier member => .inr member
  | cons first rest inductionHypothesis =>
      intro earlier member
      rcases inductionHypothesis _ member with inRest | inFirst
      · exact .inl (List.mem_cons_of_mem _ inRest)
      · rcases mem_insert inFirst with rfl | early
        · exact .inl List.mem_cons_self
        · exact .inr early

/-- Of several entries with one key the last is found. -/
theorem find?_ofEntries (entries : List (String × Value)) (key : String) :
    (ofEntries entries).find? key = entries.reverse.lookup key := by
  suffices ∀ earlier : Dict Value,
      (entries.foldl (fun dict entry => dict.insert entry.1 entry.2)
        earlier).find? key =
          (entries.reverse.lookup key).or (earlier.find? key) by
    simpa [ofEntries] using this []
  induction entries with
  | nil => simp
  | cons entry rest inductionHypothesis =>
      intro earlier
      rw [List.foldl_cons, inductionHypothesis, List.reverse_cons,
        List.lookup_append, find?_insert, Option.or_assoc]
      have alone : [entry].lookup key =
          if key = entry.1 then some entry.2 else none :=
        find?_cons entry [] key
      rw [alone]
      by_cases same : key = entry.1 <;> simp [same]

theorem contains_ofEntries_of_mem {entries : List (String × Value)}
    {key : String} {value : Value} (member : (key, value) ∈ entries) :
    (ofEntries entries).contains key = true := by
  rw [contains_eq, find?_ofEntries, List.lookup_isSome_iff]
  exact ⟨_, List.mem_reverse.mpr member, beq_self_eq_true key⟩

/-- Of entries in two parts, those behind count first. -/
theorem find?_ofEntries_append (front back : List (String × Value))
    (key : String) :
    (ofEntries (front ++ back)).find? key =
      ((ofEntries back).find? key).or ((ofEntries front).find? key) := by
  rw [find?_ofEntries, find?_ofEntries, find?_ofEntries, List.reverse_append,
    List.lookup_append]

/-- An entry that no other one with its key follows is found. -/
theorem find?_ofEntries_last {front back : List (String × Value)}
    {key : String} {value : Value}
    (last : ∀ entry ∈ back, entry.1 ≠ key) :
    (ofEntries (front ++ (key, value) :: back)).find? key = some value := by
  have none : back.reverse.lookup key = none :=
    List.lookup_eq_none_iff.mpr fun entry member =>
      bne_iff_ne.mpr
        (last entry (List.mem_reverse.mp member)).symm
  rw [find?_ofEntries, List.reverse_append, List.reverse_cons,
    List.append_assoc, List.lookup_append, none, Option.none_or,
    List.singleton_append, List.lookup_cons_self]

/-! ## Comparison -/

section

variable {Left Right : Type} {related : Left → Right → Prop}

/-- Two entries with one key whose values are related. -/
def SameKey (related : Left → Right → Prop) (left : String × Left)
    (right : String × Right) : Prop :=
  left.1 = right.1 ∧ related left.2 right.2

theorem forall₂_insert {left : Dict Left} {right : Dict Right}
    (same : List.Forall₂ (SameKey related) left right) {key : String}
    {leftValue : Left} {rightValue : Right}
    (values : related leftValue rightValue) :
    List.Forall₂ (SameKey related) (left.insert key leftValue)
      (right.insert key rightValue) := by
  have inserted : SameKey related (key, leftValue) (key, rightValue) :=
    ⟨rfl, values⟩
  induction same with
  | nil => exact .cons inserted .nil
  | @cons leftEntry rightEntry _ _ first rest inductionHypothesis =>
      obtain ⟨_, _⟩ := leftEntry
      obtain ⟨_, _⟩ := rightEntry
      obtain ⟨rfl, held⟩ := first
      unfold insert
      split
      · exact .cons inserted (.cons ⟨rfl, held⟩ rest)
      · split
        · exact .cons inserted rest
        · exact .cons ⟨rfl, held⟩ inductionHypothesis

/-- What is collected from related entries is related, also where a later entry
takes the place of an earlier one. -/
theorem forall₂_ofEntries {left : List (String × Left)}
    {right : List (String × Right)}
    (same : List.Forall₂ (SameKey related) left right) :
    List.Forall₂ (SameKey related) (ofEntries left) (ofEntries right) := by
  refine List.rel_foldl ?_ .nil same
  rintro leftDict rightDict sameDict ⟨key, leftValue⟩ ⟨_, rightValue⟩
    ⟨rfl, values⟩
  exact forall₂_insert sameDict values

end

end PluginSurface.Dict
