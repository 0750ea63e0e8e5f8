import Vemu.Fuzz.Mutation

/-!
# Whether a free file is left

Every iteration takes the lock of one file, and none releases it.  So the free files get fewer by
one with each iteration (`card_free_dispatch`), and a free file is left at the start of every
iteration exactly if there are at least as many files as iterations (**`dispatch_free_iff`**).
Without a free file the search for one never ends (`getRandomFreeFile_none`).
-/

namespace Vemu

open Fallible

namespace Corpus

variable {c : Corpus} {i j : ℕ}

/-! ## Free files -/

/-- The indices of the files that are not locked. -/
def free (c : Corpus) : Finset ℕ :=
  (Finset.range c.size).filter fun i => ∃ f, c.files[i]? = some f ∧ f.locked = false

lemma mem_free_iff : i ∈ c.free ↔ ∃ f, c.files[i]? = some f ∧ f.locked = false := by
  rw [free, Finset.mem_filter, Finset.mem_range, and_iff_right_iff_imp]
  rintro ⟨f, hf, -⟩
  exact (List.getElem?_eq_some_iff.mp hf).1

lemma lt_of_mem_free (h : i ∈ c.free) : i < c.size := by
  obtain ⟨f, hf, -⟩ := mem_free_iff.mp h
  exact (List.getElem?_eq_some_iff.mp hf).1

/-- Locking a file takes it out of the free ones. -/
lemma free_lock (c : Corpus) (i : ℕ) : (c.lock i).free = c.free.erase i := by
  ext j
  rw [Finset.mem_erase, mem_free_iff, mem_free_iff]
  simp only [lock, update, List.getElem?_modify]
  by_cases hij : i = j
  · subst hij
    cases c.files[i]? <;> simp
  · simp [hij, Ne.symm hij]

/-- Another image leaves a file locked or free. -/
lemma free_update_info (c : Corpus) (i : ℕ) (info : FileInfo) :
    (c.update i fun f => { f with info := info }).free = c.free := by
  ext j
  rw [mem_free_iff, mem_free_iff]
  simp only [update, List.getElem?_modify]
  by_cases hij : i = j
  · cases c.files[j]? <;> simp [hij]
  · simp [hij]

end Corpus

/-! ## The search for a free file -/

section Search

variable {stream : ℕ → U64} {c : Corpus}

/-- What is found is free. -/
lemma getRandomFreeFile_free :
    ∀ {tries drawn idx drawn' : ℕ},
      getRandomFreeFile stream c tries drawn = .ok (idx, drawn') → idx ∈ c.free
  | 0, _, _, _, h => by cases h
  | tries + 1, drawn, idx, drawn', h => by
      rw [getRandomFreeFile, bind_eq_ok_iff] at h
      obtain ⟨i, -, h⟩ := h
      rw [bind_eq_ok_iff] at h
      obtain ⟨f, hf, h⟩ := h
      rw [Stop.lift_eq_ok_iff, orFault_eq_ok_iff] at hf
      by_cases hlocked : f.locked = true
      · rw [if_pos hlocked] at h
        exact getRandomFreeFile_free h
      · rw [if_neg hlocked] at h
        obtain ⟨rfl, -⟩ := Prod.mk.inj (Except.ok.inj h)
        exact Corpus.mem_free_iff.mpr ⟨f, hf, by simpa using hlocked⟩

/-- Where no file is free, no search finds one. -/
lemma getRandomFreeFile_none (h : c.free = ∅) (tries drawn idx drawn' : ℕ) :
    getRandomFreeFile stream c tries drawn ≠ .ok (idx, drawn') := by
  intro hfound
  have hmem := getRandomFreeFile_free hfound
  rw [h] at hmem
  simp at hmem

/-- A free file is found at once if it is drawn. -/
lemma getRandomFreeFile_of_mem {tries drawn : ℕ} (h : (stream drawn).toNat ∈ c.free) :
    getRandomFreeFile stream c (tries + 1) drawn = .ok ((stream drawn).toNat, drawn + 1) := by
  have hlt := Corpus.lt_of_mem_free h
  obtain ⟨f, hf, hfree⟩ := Corpus.mem_free_iff.mp h
  have hbelow : below (stream drawn) c.size = .ok (stream drawn).toNat := by
    rw [below, if_neg (by omega), Nat.mod_eq_of_lt hlt]
  simp [getRandomFreeFile, hbelow, Stop.lift, hf, hfree]

end Search

namespace FuzzThread

variable {env : Surroundings} {k : ℕ} {t t₀ t' : FuzzThread}

/-! ## Runs -/

/-- **An iteration uses up one free file.** -/
lemma free_iteration (h : iteration env k t = .ok t') :
    ∃ i ∈ t.corpus.free, t'.corpus.free = t.corpus.free.erase i := by
  rw [iteration, bind_eq_ok_iff] at h
  obtain ⟨p, hp, h⟩ := h
  rw [bind_eq_ok_iff] at h
  obtain ⟨info, -, h⟩ := h
  rw [bind_eq_ok_iff] at h
  obtain ⟨turn, -, h⟩ := h
  have hprep := prepared hp
  obtain ⟨drawn, f, hfound, -⟩ := hprep.input
  cases turn with
  | returned st =>
      obtain rfl := Except.ok.inj h
      refine ⟨p.input, getRandomFreeFile_free hfound, ?_⟩
      calc (withInput p info).corpus.free
          = p.thread.corpus.free := Corpus.free_update_info _ _ _
        _ = (t.corpus.lock p.input).free := by rw [hprep.corpus]
        _ = t.corpus.free.erase p.input := Corpus.free_lock _ _
  | next s => cases h

lemma card_free_dispatch :
    ∀ {runs : ℕ} {t : FuzzThread}, dispatch env runs t₀ = .ok t →
      t.corpus.free.card + runs = t₀.corpus.free.card
  | 0, t, h => by
      obtain rfl := Except.ok.inj h
      rfl
  | runs + 1, t, h => by
      rw [dispatch, bind_eq_ok_iff] at h
      obtain ⟨t₁, h₁, h⟩ := h
      obtain ⟨i, hi, hfree⟩ := free_iteration h
      have ih := card_free_dispatch h₁
      have hpos : 0 < t₁.corpus.free.card := Finset.card_pos.mpr ⟨i, hi⟩
      rw [hfree, Finset.card_erase_of_mem hi]
      omega

/-! ## A run that uses up all files -/

/-- Random numbers that pick the given files one after the other, and mutate nothing. -/
def picking (is : List ℕ) (n : ℕ) : U64 :=
  if n % 2 = 0 then BitVec.ofNat 64 (is.getD (n / 2) 0) else 0

/-- The thread of a corpus and the program that exits. -/
def exiting (c : Corpus) (drawn : ℕ) : FuzzThread := ⟨c, exitProgram, [], drawn⟩

/-- The emulator of the program that exits returns. -/
lemma exitProgram_returns :
    ∃ em code, VEmu.ofInfo (.bare .fuzz) .zero (.after .init []) 0 exitProgram [] defaultMemSize
        = .ok em ∧ VEmu.run (.bare .fuzz) 3 em = .ok (.returned code) := by
  have hview : (VEmu.ofInfo (.bare .fuzz) .zero (.after .init []) 0 exitProgram [] defaultMemSize
      >>= fun em => VEmu.run (.bare .fuzz) 3 em >>= fun turn => orFault .assertFailed turn.code)
      = .ok 0 := by decide +kernel
  obtain ⟨em, hem, hview⟩ := bind_eq_ok_iff.mp hview
  obtain ⟨turn, hturn, hview⟩ := bind_eq_ok_iff.mp hview
  cases turn with
  | returned code => exact ⟨em, code, hem, hturn⟩
  | next s => cases hview

/-- An iteration that mutates nothing locks the file that is drawn. -/
lemma iteration_exiting {stream : ℕ → U64} {c : Corpus} {drawn : ℕ}
    (hfree : (stream drawn).toNat ∈ c.free) (hzero : stream (drawn + 1) = 0) :
    ∃ c', iteration (drawing stream) k (exiting c drawn) = .ok (exiting c' (drawn + 2))
      ∧ c'.free = c.free.erase (stream drawn).toNat := by
  obtain ⟨em, code, hem, hrun⟩ := exitProgram_returns
  obtain ⟨f, hf, -⟩ := Corpus.mem_free_iff.mp hfree
  have hlocked : (c.lock (stream drawn).toNat).files[(stream drawn).toNat]?
      = some { f with locked := true } := by
    simp [Corpus.lock, Corpus.update, hf]
  have hprepare : (exiting c drawn).prepare (drawing stream) k
      = .ok ⟨exiting (c.lock (stream drawn).toNat) (drawn + 2), (stream drawn).toNat, f.info, [],
          em⟩ := by
    simp only [prepare, drawing, exiting, getRandomFreeFile_of_mem hfree, ok_bind, hlocked, hzero,
      orFault_some, Stop.lift, substituteInput, List.map_nil]
    rw [show ((0 : U64) % 8).toNat = 0 from rfl, pushMutate]
    simp only [hem, ok_bind, pure_eq_ok]
  refine ⟨(c.lock (stream drawn).toNat).update (stream drawn).toNat fun g => { g with info := f.info },
    ?_, by rw [Corpus.free_update_info, Corpus.free_lock]⟩
  rw [iteration, hprepare]
  simp only [ok_bind, popMutate, List.foldlM_nil, pure_eq_ok, Stop.lift, drawing, hrun]
  rfl

/-- The given free files get locked one after the other. -/
lemma dispatch_exiting {c : Corpus} {is : List ℕ} (hnodup : is.Nodup) (hfree : ∀ i ∈ is, i ∈ c.free) :
    ∀ n ≤ is.length, ∃ c', dispatch (drawing (picking is)) n (exiting c 0) = .ok (exiting c' (2 * n))
      ∧ c'.free = c.free \ (is.take n).toFinset
  | 0, _ => ⟨c, rfl, by simp⟩
  | n + 1, hn => by
      obtain ⟨c₁, hrun, hc₁⟩ := dispatch_exiting hnodup hfree n (by omega)
      have hpick : (picking is (2 * n)).toNat = is[n] := by
        have hlt := Corpus.lt_of_mem_free (hfree is[n] (List.getElem_mem _))
        have hsize := c.length_lt
        rw [Corpus.size] at hlt
        rw [picking, if_pos (by omega), Nat.mul_div_cancel_left n (by omega),
          List.getD_eq_getElem?_getD, List.getElem?_eq_getElem (by omega), Option.getD_some,
          BitVec.toNat_ofNat, Nat.mod_eq_of_lt (by omega)]
      have hzero : picking is (2 * n + 1) = 0 := if_neg (by omega)
      have hmem : (picking is (2 * n)).toNat ∈ c₁.free := by
        rw [hpick, hc₁, Finset.mem_sdiff, List.mem_toFinset]
        refine ⟨hfree _ (List.getElem_mem _), fun hin => ?_⟩
        obtain ⟨j, hj, heq⟩ := List.mem_take_iff_getElem.mp hin
        have := (List.Nodup.getElem_inj_iff hnodup).mp heq
        omega
      obtain ⟨c₂, hiter, hc₂⟩ := iteration_exiting hmem hzero
      refine ⟨c₂, ?_, ?_⟩
      · rw [dispatch, hrun, ok_bind, hiter]
        rfl
      · rw [hc₂, hc₁, hpick, List.take_succ_eq_append_getElem (by omega), List.toFinset_append,
          ← Finset.sdiff_singleton_eq_erase, sdiff_sdiff_left]
        simp

/-- **When a free file is left.**  Whatever the target, the options and the random numbers, a file
is free at the start of every iteration exactly if there are as many free files as iterations. -/
theorem dispatch_free_iff (c : Corpus) (runs : ℕ) :
    (∀ env target fuzzOpts drawn, ∀ k < runs, ∀ t,
        dispatch env k ⟨c, target, fuzzOpts, drawn⟩ = .ok t → t.corpus.free.Nonempty)
      ↔ runs ≤ c.free.card := by
  constructor
  · intro hall
    by_contra! hlt
    have hlen : c.free.toList.length = c.free.card := Finset.length_toList _
    obtain ⟨c', hrun, hc'⟩ := dispatch_exiting (Finset.nodup_toList c.free)
      (fun i hi => Finset.mem_toList.mp hi) c.free.card hlen.ge
    have hleft := hall _ _ _ _ c.free.card hlt _ hrun
    have hnone : c'.free = ∅ := by
      rw [hc', ← hlen, List.take_length, Finset.toList_toFinset, Finset.sdiff_self]
    rw [exiting, hnone] at hleft
    exact Finset.not_nonempty_empty hleft
  · intro hle env target fuzzOpts drawn k hk t ht
    have hcard : t.corpus.free.card + k = c.free.card := card_free_dispatch ht
    exact Finset.card_pos.mp (by omega)

/-- With one file, the second iteration never gets past its search. -/
theorem no_free_oneFile :
    ∃ t, dispatch (drawing fun _ => 0) 1 oneFile = .ok t ∧ t.corpus.free = ∅
      ∧ ∀ stream tries drawn idx drawn',
          getRandomFreeFile stream t.corpus tries drawn ≠ .ok (idx, drawn') := by
  have hrun : (dispatch (drawing fun _ => 0) 1 oneFile >>= fun t => .ok ()) = .ok () := by
    decide +kernel
  obtain ⟨t, ht, -⟩ := bind_eq_ok_iff.mp hrun
  have hcard := card_free_dispatch ht
  have hone : oneFile.corpus.free.card = 1 := by decide
  have hnone : t.corpus.free = ∅ := Finset.card_eq_zero.mp (by omega)
  exact ⟨t, ht, hnone, fun _ => getRandomFreeFile_none hnone⟩

end FuzzThread

end Vemu
