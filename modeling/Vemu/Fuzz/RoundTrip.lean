import Vemu.Fuzz.Divisors
import Vemu.Lib.Transition

/-!
# Mutations and their inverse

Calls of `push_mutate` share a history.  Whatever they draw, the history holds the first byte of
every position that they wrote to, and no other position has changed (`Keeps`); so writing the
history back restores the image.  A call changes no more bytes than it draws, and they are all inside
their segments.  **`roundTrip`** says so of any number of calls, on an image that has segments, none
of them empty.
-/

namespace Vemu

open Fallible OrderedMap Transition

/-! ## Calls -/

/-- A call of `push_mutate`: its random numbers and how many bytes it mutates. -/
structure PushCall where
  stream : ℕ → U64
  nBytes : ℕ

namespace PushCall

/-- The image and the history after a call. -/
def push (st : FileInfo × MutationHistory) (c : PushCall) :
    Except Fault (FileInfo × MutationHistory) := do
  let (_, info, history) ← pushMutate c.stream c.nBytes 0 st.1 st.2
  return (info, history)

/-- Every byte of the image can be brought back. -/
def Restores (orig : FileInfo) (st : FileInfo × MutationHistory) : Prop :=
  ∃ info, popMutate st.1 st.2 = .ok info ∧ info.bytes = orig.bytes

/-- **What is asked of a call.** -/
structure Pushes (st : FileInfo × MutationHistory) (c : PushCall) : Prop where
  completes : ∃ st', push st c = .ok st'
  /-- The positions that it uses are inside their segments. -/
  inside : ∀ w ∈ draws c.stream st.1.shape c.nBytes 0, (st.1.byteAt w.1).isSome = true
  /-- It changes no more bytes than it is told to. -/
  few : ∀ st', push st c = .ok st' → ∃ changed : List Position, changed.length ≤ c.nBytes
    ∧ ∀ pos, pos ∉ changed → st'.1.byteAt pos = st.1.byteAt pos

variable {orig : FileInfo} {st st' : FileInfo × MutationHistory} {c : PushCall}

/-- What holds of the image and the history between calls. -/
structure Mutated (orig : FileInfo) (st : FileInfo × MutationHistory) : Prop where
  keeps : Keeps orig st.1 st.2
  shape : st.1.shape = orig.shape
  inside : ∀ pos, (st.1.byteAt pos).isSome = (orig.byteAt pos).isSome

/-- There are segments, and each of them has bytes. -/
structure HasBytes (info : FileInfo) : Prop where
  segments : info.segments ≠ []
  sizes : ∀ seg ∈ info.segments, 0 < seg.fileSize.toNat

/-- Whatever a call draws is a segment with bytes. -/
lemma HasBytes.drawsBytes (h : HasBytes orig) (stream : ℕ → U64) (nBytes drawn : ℕ) :
    DrawsBytes stream orig.shape nBytes drawn := by
  intro k _
  have hlen : orig.shape.length = orig.segments.length := by simp [FileInfo.shape]
  have hseg : (stream (drawn + 3 * k)).toNat % orig.segments.length < orig.segments.length :=
    Nat.mod_lt _ (List.length_pos_iff.mpr h.segments)
  rw [pickedSize, hlen, FileInfo.shape, List.getElem?_map, List.getElem?_eq_getElem hseg]
  exact Nat.ne_of_gt (h.sizes _ (List.getElem_mem hseg))

lemma length_draws (stream : ℕ → U64) (sizes : List U64) (nBytes drawn : ℕ) :
    (draws stream sizes nBytes drawn).length = nBytes := by
  induction nBytes generalizing drawn with
  | zero => rfl
  | succ nBytes ih => simp [draws, ih]

lemma isSome_popMutate {info info' : FileInfo} {ws : List (Position × U8)}
    (h : popMutate info ws = .ok info') (pos : Position) :
    (info'.byteAt pos).isSome = (info.byteAt pos).isSome := by
  rw [(popMutate_spec h).2]
  cases hlast : lastWritten ws pos with
  | none => rfl
  | some b =>
      rw [popMutate_ok_iff.mp ⟨info', h⟩ _ (mem_of_lastWritten hlast)]
      rfl

/-- What a call did: it wrote the bytes that it drew. -/
lemma push_cases (hst : Mutated orig st) (h : push st c = .ok st') :
    popMutate st.1 (draws c.stream st.1.shape c.nBytes 0) = .ok st'.1 ∧ Mutated orig st' := by
  rw [push, bind_eq_ok_iff] at h
  obtain ⟨⟨drawn, info, history⟩, hpush, h⟩ := h
  obtain rfl := Except.ok.inj h
  obtain ⟨hpop, hkeeps, -⟩ := pushMutate_spec hst.keeps hpush
  refine ⟨hpop, hkeeps, (popMutate_spec hpop).1.trans hst.shape, fun pos => ?_⟩
  exact (isSome_popMutate hpop pos).trans (hst.inside pos)

/-- **One call** on an image that was mutated. -/
lemma Mutated.pushes (h : HasBytes orig) (hst : Mutated orig st) : Pushes st c := by
  obtain ⟨⟨drawn, info, history⟩, hpush⟩ := (pushMutate_cases c.stream c.nBytes 0 st.1 st.2).1
    (hst.shape ▸ h.drawsBytes c.stream c.nBytes 0)
  have hok : push st c = .ok (info, history) := by
    rw [push, hpush]
    rfl
  obtain ⟨hpop, -⟩ := push_cases hst hok
  refine ⟨⟨_, hok⟩, popMutate_ok_iff.mp ⟨_, hpop⟩, fun st' hst' => ?_⟩
  obtain rfl := Except.ok.inj (hok.symm.trans hst')
  refine ⟨(draws c.stream st.1.shape c.nBytes 0).map Prod.fst, ?_, fun pos hpos => ?_⟩
  · rw [List.length_map, length_draws]
  · rw [(popMutate_spec hpop).2]
    cases hlast : lastWritten (draws c.stream st.1.shape c.nBytes 0) pos with
    | none => rfl
    | some b => exact absurd (List.mem_map_of_mem (mem_of_lastWritten hlast)) hpos

/-- **The round trip of mutations.**  From an empty history, every call goes through as it should,
and after any number of calls the history brings back all bytes of the image. -/
theorem roundTrip (hbytes : HasBytes orig) (calls : List PushCall) :
    AllTries push Pushes (orig, []) calls ∧ AllStates push (Restores orig) (orig, []) calls := by
  have hstart : Mutated orig (orig, []) := ⟨Keeps.nil orig, rfl, fun _ => rfl⟩
  have hkeep : ∀ st c st', Mutated orig st → push st c = .ok st' → Mutated orig st' :=
    fun _ _ _ hst h => (push_cases hst h).2
  constructor
  · exact allTries_of_invariant hkeep (fun _ _ hst => hst.pushes hbytes) calls hstart
  · exact allStates_of_invariant hkeep (fun _ hst => hst.keeps.restores hst.shape hst.inside) calls
      hstart

/-- Two calls, of which the second mutates a byte that the first has mutated. -/
def twoCalls : List PushCall :=
  [⟨([0, 1, 7].getD · 0), 1⟩, ⟨([0, 1, 9, 0, 2, 9].getD · 0), 2⟩]

theorem roundTrip_twoCalls : ∃ st, twoCalls.foldlM push (FuzzThread.exitProgram, []) = .ok st
    ∧ st.1.bytes = [[0x93, 9, 9, 0x05, 0x73, 0, 0, 0, 0, 0, 0, 0]]
    ∧ Restores FuzzThread.exitProgram st := by
  have hview : (twoCalls.foldlM push (FuzzThread.exitProgram, []) >>= fun st => .ok st.1.bytes)
      = .ok [[0x93, 9, 9, 0x05, 0x73, 0, 0, 0, 0, 0, 0, 0]] := by
    decide +kernel
  obtain ⟨st, hst, hbytes⟩ := bind_eq_ok_iff.mp hview
  refine ⟨st, hst, Except.ok.inj hbytes, ?_⟩
  exact (roundTrip ⟨by simp [FuzzThread.exitProgram], by simp [FuzzThread.exitProgram]⟩ _).2.last hst

end PushCall

end Vemu
