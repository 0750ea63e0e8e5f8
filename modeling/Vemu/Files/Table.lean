import Vemu.Handlers.Syscalls
import Vemu.Invariant

/-!
# The table of open files

A call finds the first entry with its descriptor, and changes that one (`updateFirst`).  A file
is kept as its contents and a terminator (`Holds`), in a buffer that `open` makes; the standard
streams have neither.  `slice_of_holds` says what a read of a range inside the file copies.
-/

namespace Vemu

open Fallible

namespace VEmu

variable {s s' : VEmu} {files : List FileHandle} {fh : FileHandle} {contents : List U8}

/-- Whether an entry has the descriptor. -/
def hasFd (fd : U64) (fh : FileHandle) : Bool := decide (fh.fd.signExtend 64 = fd)

/-- A descriptor is the low word of the register that it is given in. -/
lemma fd_of_hasFd {fd : U64} (h : hasFd fd fh = true) : fh.fd = fd.setWidth 32 := by
  rw [← of_decide_eq_true h]
  apply BitVec.eq_of_getLsbD_eq
  intro i hi
  rw [BitVec.getLsbD_setWidth, BitVec.getLsbD_signExtend]
  simp [hi, show i < 64 by omega]

/-- The entry that a call with the descriptor finds. -/
def openedIn (files : List FileHandle) (fd : U64) : Option FileHandle := files.find? (hasFd fd)

/-! ## Changing an entry -/

section Update

variable {p q : FileHandle → Bool} {g : FileHandle → FileHandle}

lemma updateFirst_self : ∀ files : List FileHandle, updateFirst p (fun fh => fh) files = files
  | [] => rfl
  | fh :: files => by
      rw [updateFirst]
      split_ifs
      · rfl
      · rw [updateFirst_self files]

lemma find?_updateFirst (hg : p (g fh) = true) :
    ∀ files : List FileHandle, files.find? p = some fh →
      (updateFirst p g files).find? p = some (g fh)
  | [], h => by cases h
  | fh' :: files, h => by
      cases hp : p fh' with
      | true =>
          rw [List.find?_cons_of_pos hp] at h
          obtain rfl := Option.some.inj h
          rw [updateFirst, if_pos hp, List.find?_cons_of_pos hg]
      | false =>
          have hp' : ¬ p fh' = true := by simp [hp]
          rw [List.find?_cons_of_neg hp'] at h
          rw [updateFirst, if_neg hp', List.find?_cons_of_neg hp']
          exact find?_updateFirst hg files h

/-- The entries with other descriptors are found as before. -/
lemma find?_updateFirst_of_other (hpq : ∀ x, p x = true → q x = false ∧ q (g x) = false) :
    ∀ files : List FileHandle, (updateFirst p g files).find? q = files.find? q
  | [] => rfl
  | fh :: files => by
      cases hp : p fh with
      | true =>
          obtain ⟨hq, hqg⟩ := hpq fh hp
          rw [updateFirst, if_pos hp, List.find?_cons_of_neg (by simp [hqg]),
            List.find?_cons_of_neg (by simp [hq])]
      | false =>
          rw [updateFirst, if_neg (by simp [hp]), List.find?_cons, List.find?_cons,
            find?_updateFirst_of_other hpq files]

lemma mem_updateFirst {x : FileHandle} : ∀ files : List FileHandle, x ∈ updateFirst p g files →
    x ∈ files ∨ ∃ fh, files.find? p = some fh ∧ x = g fh
  | [], h => by cases h
  | fh :: files, h => by
      cases hp : p fh with
      | true =>
          rw [updateFirst, if_pos hp] at h
          rcases List.mem_cons.mp h with rfl | h
          · exact Or.inr ⟨fh, List.find?_cons_of_pos hp, rfl⟩
          · exact Or.inl (List.mem_cons_of_mem _ h)
      | false =>
          have hp' : ¬ p fh = true := by simp [hp]
          rw [updateFirst, if_neg hp'] at h
          rcases List.mem_cons.mp h with rfl | h
          · exact Or.inl (List.mem_cons_self ..)
          · rcases mem_updateFirst files h with hmem | ⟨fh', hfind, rfl⟩
            · exact Or.inl (List.mem_cons_of_mem _ hmem)
            · exact Or.inr ⟨fh', by rw [List.find?_cons_of_neg hp', hfind], rfl⟩

end Update

/-- Moving the position of a descriptor. -/
def moveTo (fd : U64) (pos : FileHandle → U64) (files : List FileHandle) : List FileHandle :=
  updateFirst (hasFd fd) (fun fh => { fh with idx := pos fh }) files

lemma openedIn_moveTo {fd : U64} {pos : FileHandle → U64} (h : openedIn files fd = some fh) :
    openedIn (moveTo fd pos files) fd = some { fh with idx := pos fh } := by
  have hfd : hasFd fd fh = true := List.find?_some h
  exact find?_updateFirst hfd files h

lemma openedIn_moveTo_of_ne {fd fd' : U64} (hne : fd' ≠ fd) (pos : FileHandle → U64) :
    openedIn (moveTo fd' pos files) fd = openedIn files fd := by
  refine find?_updateFirst_of_other (fun x hx => ?_) files
  have hx' : x.fd.signExtend 64 = fd' := of_decide_eq_true hx
  have hother : hasFd fd x = false := decide_eq_false (by rw [hx']; exact hne)
  exact ⟨hother, hother⟩

/-! ## The calls on an entry -/

/-- `read` of an open descriptor. -/
lemma sysRead_of_open (hopen : openedIn s.fileTable (s.loadReg regA0) = some fh) :
    sysRead s = if readCount fh (s.loadReg regA2) = 0 then normal s
      else slice fh.data fh.idx (readCount fh (s.loadReg regA2)) >>= fun data =>
        s.bus.mmu.writeFrom data (s.loadReg regA1) >>= fun mmu =>
          normal (({ s.withMmu mmu with
            fileTable := moveTo (s.loadReg regA0)
              (fun fh' => fh'.idx + readCount fh (s.loadReg regA2)) s.fileTable }).storeReg regA0
            (readCount fh (s.loadReg regA2))) := by
  have hfind : s.fileTable.find? (fun fh => decide (fh.fd.signExtend 64 = s.loadReg regA0))
      = some fh := hopen
  unfold sysRead
  dsimp only
  rw [hfind]
  rfl

lemma moveTo_self (fd : U64) (files : List FileHandle) :
    moveTo fd (fun fh => fh.idx + 0) files = files := by
  simpa [moveTo] using updateFirst_self files

/-- `read` moves the position of its descriptor by what it has copied. -/
lemma sysRead_fileTable {e : ReturnException} (h : sysRead s = .ok (e, s')) :
    ∃ fh, openedIn s.fileTable (s.loadReg regA0) = some fh
      ∧ s'.fileTable = moveTo (s.loadReg regA0)
        (fun fh' => fh'.idx + readCount fh (s.loadReg regA2)) s.fileTable := by
  cases hopen : openedIn s.fileTable (s.loadReg regA0) with
  | none =>
      have hfind : s.fileTable.find? (fun fh => decide (fh.fd.signExtend 64 = s.loadReg regA0))
          = none := hopen
      unfold sysRead at h
      dsimp only at h
      rw [hfind] at h
      cases h
  | some fh =>
      refine ⟨fh, rfl, ?_⟩
      rw [sysRead_of_open hopen] at h
      split_ifs at h with hzero
      · obtain ⟨-, rfl⟩ := Prod.mk.inj (Except.ok.inj h)
        rw [hzero]
        exact (moveTo_self _ _).symm
      · obtain ⟨data, -, h⟩ := bind_eq_ok_iff.mp h
        obtain ⟨mmu, -, h⟩ := bind_eq_ok_iff.mp h
        obtain ⟨-, rfl⟩ := Prod.mk.inj (Except.ok.inj h)
        rfl

/-- `lseek` of an open descriptor. -/
lemma sysLseek_of_open (hopen : openedIn s.fileTable (s.loadReg regA0) = some fh) :
    sysLseek s = seekIdx fh (s.loadReg regA1) (s.loadReg regA2) >>= fun idx =>
      normal (({ s with
        fileTable := moveTo (s.loadReg regA0) (fun _ => idx) s.fileTable }).storeReg regA0 idx) := by
  have hfind : s.fileTable.find? (fun fh => decide (fh.fd.signExtend 64 = s.loadReg regA0))
      = some fh := hopen
  unfold sysLseek
  dsimp only
  rw [hfind]
  rfl

/-- `lseek` of any other returns an error. -/
lemma sysLseek_of_none (hopen : openedIn s.fileTable (s.loadReg regA0) = none) :
    sysLseek s = normal (s.storeReg regA0 (-1)) := by
  have hfind : s.fileTable.find? (fun fh => decide (fh.fd.signExtend 64 = s.loadReg regA0))
      = none := hopen
  unfold sysLseek
  dsimp only
  rw [hfind]

/-! ## Contents -/

/-- The entry is a file with these contents, or a standard stream.  The size of a file is a
signed number of the host. -/
structure Holds (fh : FileHandle) (contents : List U8) : Prop where
  data : (∃ terminator, fh.data = some (contents ++ [terminator])) ∨ fh.data = none ∧ contents = []
  len : contents.length = fh.len.toNat
  fits : contents.length ≤ MMU.maxVectorSize

lemma Holds.move (h : Holds fh contents) (idx : U64) : Holds { fh with idx := idx } contents :=
  ⟨h.data, h.len, h.fits⟩

/-- A range inside the file is copied. -/
lemma slice_of_holds (h : Holds fh contents) {idx count : U64} (hpos : 0 < count.toNat)
    (hle : idx.toNat + count.toNat ≤ contents.length) :
    slice fh.data idx count = .ok ((contents.drop idx.toNat).take count.toNat) := by
  have hmax : count.toNat ≤ MMU.maxVectorSize := le_trans (by omega) h.fits
  rcases h.data with ⟨terminator, hdata⟩ | ⟨-, hempty⟩
  · have hin : idx.toNat + count.toNat ≤ (contents ++ [terminator]).length := by
      rw [List.length_append]
      omega
    rw [slice, decide_eq_true hmax, check_true, ok_bind, hdata, orFault_some, ok_bind,
      decide_eq_true hin, check_true, ok_bind, List.drop_append_of_le_length (by omega),
      List.take_append_of_le_length (by rw [List.length_drop]; omega)]
    rfl
  · rw [hempty, List.length_nil] at hle
    omega

/-- A range that goes past the buffer is not. -/
lemma slice_of_past (h : Holds fh contents) {idx count : U64}
    (hlt : contents.length + 1 < idx.toNat + count.toNat) :
    ∃ e, slice fh.data idx count = .error e ∧ e ≠ .assertFailed := by
  rw [slice]
  by_cases hmax : count.toNat ≤ MMU.maxVectorSize
  · rw [decide_eq_true hmax, check_true, ok_bind]
    rcases h.data with ⟨terminator, hdata⟩ | ⟨hdata, -⟩
    · have hout : ¬ idx.toNat + count.toNat ≤ (contents ++ [terminator]).length := by
        rw [List.length_append, List.length_singleton]
        omega
      rw [hdata, orFault_some, ok_bind, decide_eq_false hout]
      exact ⟨_, rfl, by decide⟩
    · rw [hdata]
      exact ⟨_, rfl, by decide⟩
  · rw [decide_eq_false hmax]
    exact ⟨_, rfl, by decide⟩

end VEmu

end Vemu
