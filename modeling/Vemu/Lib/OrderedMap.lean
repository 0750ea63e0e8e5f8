import Vemu.Lib.Fallible

/-!
# Ordered maps as sorted lists

A map kept as the list of its entries in increasing key order, the order in which an ordered
map is walked.  Keys are ordered by an injective `rank` into `ℕ`.  `insertNew` never replaces
an entry, so that a map built from a list of entries (`ofEntries`) keeps the first entry of
each key.

`firstMatch` walks a map and stops at the first entry its test accepts; the test is allowed to
fail.  Where no test fails, the walk is a search for the first row of a table
(`firstMatch_map`).
-/

namespace OrderedMap

open Fallible

variable {κ : Type} {α : Type*} {ε : Type*}

/-- Inserts an entry at its place, unless its key is there already. -/
def insertNew (rank : κ → ℕ) (k : κ) (a : α) : List (κ × α) → List (κ × α)
  | [] => [(k, a)]
  | e :: m =>
      if rank k < rank e.1 then (k, a) :: e :: m
      else if rank e.1 < rank k then e :: insertNew rank k a m
      else e :: m

/-- The map with the given entries, the first one winning where a key is repeated. -/
def ofEntries (rank : κ → ℕ) (entries : List (κ × α)) : List (κ × α) :=
  entries.foldl (fun m e => insertNew rank e.1 e.2 m) []

/-- The value stored under a key. -/
def find? [DecidableEq κ] (m : List (κ × α)) (k : κ) : Option α :=
  (m.find? fun e => e.1 = k).map Prod.snd

@[simp] lemma find?_nil [DecidableEq κ] (k : κ) : find? ([] : List (κ × α)) k = none := rfl

lemma find?_cons [DecidableEq κ] (e : κ × α) (m : List (κ × α)) (k : κ) :
    find? (e :: m) k = if e.1 = k then some e.2 else find? m k := by
  by_cases h : e.1 = k <;> simp [find?, h]

/-- Something is found under exactly the keys. -/
lemma isSome_find? [DecidableEq κ] (m : List (κ × α)) (k : κ) :
    (find? m k).isSome = decide (k ∈ m.map Prod.fst) := by
  induction m with
  | nil => rfl
  | cons e m ih =>
      rw [find?_cons]
      by_cases h : e.1 = k
      · simp [h]
      · rw [if_neg h, ih]
        simp [Ne.symm h]

/-- Nothing is found under what is no key. -/
lemma find?_eq_none_iff [DecidableEq κ] {m : List (κ × α)} {k : κ} :
    find? m k = none ↔ k ∉ m.map Prod.fst := by
  have h := isSome_find? m k
  rw [← Option.not_isSome_iff_eq_none, h, decide_eq_true_iff]

/-- A search for a value, in terms of the values that occur. -/
lemma any_snd [DecidableEq α] {m : List (κ × α)} {vals : List α}
    (hsub : ∀ e ∈ m, e.2 ∈ vals) (hsup : ∀ v ∈ vals, v ∈ m.map Prod.snd) (a : α) :
    (m.any fun e => a == e.2) = vals.any fun v => a == v := by
  rw [Bool.eq_iff_iff, List.any_eq_true, List.any_eq_true]
  constructor
  · rintro ⟨e, he, ha⟩
    exact ⟨e.2, hsub e he, ha⟩
  · rintro ⟨v, hv, ha⟩
    obtain ⟨e, he, rfl⟩ := List.mem_map.mp (hsup v hv)
    exact ⟨e, he, ha⟩

/-! ## Sorted maps -/

/-- The entries stand in increasing key order. -/
def Sorted (rank : κ → ℕ) (m : List (κ × α)) : Prop :=
  m.Pairwise fun e e' => rank e.1 < rank e'.1

lemma mem_insertNew {rank : κ → ℕ} {k : κ} {a : α} {m : List (κ × α)} {e : κ × α}
    (h : e ∈ insertNew rank k a m) : e = (k, a) ∨ e ∈ m := by
  induction m with
  | nil => simpa [insertNew] using h
  | cons e' m ih =>
      simp only [insertNew] at h
      split_ifs at h
      · simpa using h
      · rcases List.mem_cons.mp h with rfl | h
        · simp
        · rcases ih h with h | h
          · exact Or.inl h
          · simp [h]
      · exact Or.inr h

/-- An insertion keeps the entries that are there. -/
lemma mem_insertNew_of_mem {rank : κ → ℕ} (k : κ) (a : α) {m : List (κ × α)} {e : κ × α}
    (h : e ∈ m) : e ∈ insertNew rank k a m := by
  induction m with
  | nil => simp at h
  | cons e' m ih =>
      simp only [insertNew]
      split_ifs
      · exact List.mem_cons_of_mem _ h
      · rcases List.mem_cons.mp h with rfl | h
        · exact List.mem_cons_self
        · exact List.mem_cons_of_mem _ (ih h)
      · exact h

/-- An entry with a new rank is inserted. -/
lemma mem_insertNew_self {rank : κ → ℕ} {k : κ} (a : α) {m : List (κ × α)}
    (h : ∀ e ∈ m, rank e.1 ≠ rank k) : (k, a) ∈ insertNew rank k a m := by
  induction m with
  | nil => simp [insertNew]
  | cons e m ih =>
      have he := h e List.mem_cons_self
      simp only [insertNew]
      split_ifs
      · exact List.mem_cons_self
      · exact List.mem_cons_of_mem _ (ih fun e' he' => h e' (List.mem_cons_of_mem _ he'))
      · omega

/-- Insertion keeps the order. -/
lemma Sorted.insertNew {rank : κ → ℕ} {m : List (κ × α)} (h : Sorted rank m) (k : κ) (a : α) :
    Sorted rank (insertNew rank k a m) := by
  induction m with
  | nil => simp [Sorted, OrderedMap.insertNew]
  | cons e m ih =>
      obtain ⟨he, hm⟩ := List.pairwise_cons.mp h
      simp only [OrderedMap.insertNew]
      split_ifs with h1 h2
      · refine List.pairwise_cons.mpr ⟨?_, h⟩
        intro e' he'
        rcases List.mem_cons.mp he' with rfl | he'
        · exact h1
        · exact lt_trans h1 (he e' he')
      · refine List.pairwise_cons.mpr ⟨?_, ih hm⟩
        intro e' he'
        rcases mem_insertNew he' with rfl | he'
        · exact h2
        · exact he e' he'
      · exact h

/-- A map built from its entries is sorted. -/
lemma sorted_ofEntries (rank : κ → ℕ) (entries : List (κ × α)) :
    Sorted rank (ofEntries rank entries) := by
  have h : ∀ (entries m : List (κ × α)), Sorted rank m →
      Sorted rank (entries.foldl (fun m e => OrderedMap.insertNew rank e.1 e.2 m) m) := by
    intro entries
    induction entries with
    | nil => exact fun m hm => hm
    | cons e entries ih => exact fun m hm => ih _ (hm.insertNew e.1 e.2)
  exact h entries [] List.Pairwise.nil

/-- In a sorted map every entry is the one found under its key. -/
lemma Sorted.find?_of_mem [DecidableEq κ] {rank : κ → ℕ} {m : List (κ × α)} (h : Sorted rank m)
    {e : κ × α} (he : e ∈ m) : find? m e.1 = some e.2 := by
  induction m with
  | nil => simp at he
  | cons e' m ih =>
      obtain ⟨he', hm⟩ := List.pairwise_cons.mp h
      rw [find?_cons]
      rcases List.mem_cons.mp he with rfl | hmem
      · rw [if_pos rfl]
      · have hlt := he' e hmem
        rw [if_neg (fun heq => by rw [heq] at hlt; exact absurd hlt (lt_irrefl _)), ih hm hmem]

/-! ## Walking a map -/

/-- The key of the first entry that the test accepts. -/
def firstMatch (test : κ → α → Except ε Bool) : List (κ × α) → Except ε (Option κ)
  | [] => .ok none
  | e :: m => do
      let accepted ← test e.1 e.2
      if accepted then .ok (some e.1) else firstMatch test m

/-- **A walk over a table.**  When the entries of the map come from the rows of a table, and the
test of every entry succeeds with an answer `p` that can be read off its row, the walk is the
search for the first row with that answer. -/
theorem firstMatch_map {ρ : Type*} {test : κ → α → Except ε Bool} {entry : ρ → κ × α}
    {p : ρ → Bool} :
    ∀ rows : List ρ, (∀ r ∈ rows, test (entry r).1 (entry r).2 = .ok (p r)) →
      firstMatch test (rows.map entry) = .ok ((rows.find? p).map fun r => (entry r).1)
  | [], _ => rfl
  | r :: rows, h => by
      have htail : firstMatch test (rows.map entry)
          = .ok ((rows.find? p).map fun r => (entry r).1) :=
        firstMatch_map rows fun r' hr' => h r' (by simp [hr'])
      rw [List.map_cons, firstMatch, h r (by simp), List.find?_cons]
      cases p r with
      | true => rfl
      | false => exact htail

end OrderedMap
