import Vemu.HostSafety.Rounds
import Vemu.MemoryTrace
import Vemu.Startup.Image

/-!
# What a guest cannot change

A guest writes where it has the permission, and gets permissions from the allocator only, which
hands out memory above its pointer and without `PERM_EXEC`.  So in every run, however long it is
and whatever the system calls do:

* **`executable_kept`** — a byte that can be executed could be at the start, and if it could not be
  written there, it is the same byte still.
* **`readOnly_kept`** — a byte below the allocation pointer that cannot be written never changes.
* **`fetch_image`** — what is fetched from a read-only segment is a word of the program's file, in
  every state that the emulator of the program reaches (`image_of_run`).
-/

namespace Vemu

open Fallible Loop Relation

namespace MMU

variable {m m' m'' : MMU} {i : ℕ}

def CanExec (m : MMU) (i : ℕ) : Prop := m.bytePermission.data i &&& permExec ≠ 0

def CanWrite (m : MMU) (i : ℕ) : Prop := m.bytePermission.data i &&& permWrite ≠ 0

instance (m : MMU) (i : ℕ) : Decidable (m.CanExec i) := inferInstanceAs (Decidable (_ ≠ _))

instance (m : MMU) (i : ℕ) : Decidable (m.CanWrite i) := inferInstanceAs (Decidable (_ ≠ _))

/-- The byte and its permissions are the same in both. -/
structure SameByte (m m' : MMU) (i : ℕ) : Prop where
  data : m'.ram.data i = m.ram.data i
  perm : m'.bytePermission.data i = m.bytePermission.data i

lemma SameByte.trans (h : m.SameByte m' i) (h' : m'.SameByte m'' i) : m.SameByte m'' i :=
  ⟨h'.data.trans h.data, h'.perm.trans h.perm⟩

lemma SameByte.canWrite_iff (h : m.SameByte m' i) : m'.CanWrite i ↔ m.CanWrite i := by
  rw [CanWrite, h.perm, CanWrite]

/-- **What no operation of a guest does to a byte**: it does not make it executable, and it changes
it only if it can be written or is handed out by the allocator. -/
structure Guarded (i : ℕ) (m m' : MMU) : Prop where
  exec : m'.CanExec i → m.CanExec i ∧ (¬ m.CanWrite i → m.SameByte m' i)
  below : i < m.allocPtr.toNat → ¬ m.CanWrite i → m.SameByte m' i
  allocPtr : m.allocPtr.toNat ≤ m'.allocPtr.toNat
  ramSize : m'.ramSize = m.ramSize

lemma Guarded.refl (i : ℕ) (m : MMU) : Guarded i m m :=
  ⟨fun h => ⟨h, fun _ => ⟨rfl, rfl⟩⟩, fun _ _ => ⟨rfl, rfl⟩, le_rfl, rfl⟩

lemma Guarded.trans (h : Guarded i m m') (h' : Guarded i m' m'') : Guarded i m m'' where
  exec := by
    intro hexec
    obtain ⟨hexec', hsame'⟩ := h'.exec hexec
    obtain ⟨hexec₀, hsame⟩ := h.exec hexec'
    exact ⟨hexec₀, fun hw => (hsame hw).trans (hsame' (mt (hsame hw).canWrite_iff.mp hw))⟩
  below := by
    intro hi hw
    have hsame := h.below hi hw
    exact hsame.trans (h'.below (lt_of_lt_of_le hi h.allocPtr) (mt hsame.canWrite_iff.mp hw))
  allocPtr := h.allocPtr.trans h'.allocPtr
  ramSize := h'.ramSize.trans h.ramSize

/-! ## One operation -/

/-- Being written changes neither of the two permissions. -/
lemma initialised_and (p : U8) :
    initialised p &&& permExec = p &&& permExec
      ∧ initialised p &&& permWrite = p &&& permWrite := by
  revert p
  decide

/-- Memory that is handed out can be written and cannot be executed. -/
lemma raw_and : (permRaw ||| permWrite) &&& permExec = 0
    ∧ (permRaw ||| permWrite) &&& permWrite ≠ 0 := by
  decide

/-- Marking a block changes no byte. -/
lemma Guarded.mark (h : Guarded i m m') (addr : U64) : Guarded i m (m'.mark addr) where
  exec := fun hexec => (h.exec hexec).imp_right fun hsame hw => ⟨(hsame hw).data, (hsame hw).perm⟩
  below := fun hi hw => ⟨(h.below hi hw).data, (h.below hi hw).perm⟩
  allocPtr := h.allocPtr
  ramSize := h.ramSize

/-- Bytes that can be written were written. -/
lemma guarded_written {addr : U64} {buf : List U8} (hw : m.Writable addr buf.length) :
    Guarded i m (m.written addr buf) := by
  by_cases hin : addr.toNat ≤ i ∧ i < addr.toNat + buf.length
  · have hperm : (m.written addr buf).bytePermission.data i
        = initialised (m.bytePermission.data i) := mapOn_of_mem hin
    have hwrite : m.CanWrite i := by
      have hk := hw (i - addr.toNat) (by omega)
      rwa [Nat.add_sub_cancel' hin.1] at hk
    refine ⟨fun hexec => ⟨?_, fun hnot => absurd hwrite hnot⟩, fun _ hnot => absurd hwrite hnot,
      le_rfl, rfl⟩
    rwa [CanExec, hperm, (initialised_and _).1] at hexec
  · have hsame : m.SameByte (m.written addr buf) i := ⟨overlay_of_not_mem hin, mapOn_of_not_mem hin⟩
    refine ⟨fun hexec => ⟨?_, fun _ => hsame⟩, fun _ _ => hsame, le_rfl, rfl⟩
    rwa [CanExec, hsame.perm] at hexec

lemma guarded_allocated {size : U64} (hfit : m.Fits m.allocPtr size.toNat) :
    Guarded i m { m.permitted m.allocPtr size (permRaw ||| permWrite) with
      allocPtr := m.allocPtr + size } := by
  have hptr : (m.allocPtr + size).toNat = m.allocPtr.toNat + size.toNat := by
    have hlt := hfit.lt_two_pow
    rw [BitVec.toNat_add, Nat.mod_eq_of_lt hlt]
  refine ⟨fun hexec => ?_, fun hi _ => ⟨rfl, ?_⟩, ?_, rfl⟩
  · by_cases hin : m.allocPtr.toNat ≤ i ∧ i < m.allocPtr.toNat + size.toNat
    · refine absurd ?_ hexec
      change mapOn _ m.bytePermission.data _ _ i &&& permExec = 0
      rw [mapOn_of_mem hin]
      exact raw_and.1
    · have hperm : mapOn (fun _ => permRaw ||| permWrite) m.bytePermission.data m.allocPtr.toNat
          size.toNat i = m.bytePermission.data i := mapOn_of_not_mem hin
      have hexec' : m.bytePermission.data i &&& permExec ≠ 0 := hperm ▸ hexec
      exact ⟨hexec', fun _ => ⟨rfl, hperm⟩⟩
  · have hperm : mapOn (fun _ => permRaw ||| permWrite) m.bytePermission.data m.allocPtr.toNat
        size.toNat i = m.bytePermission.data i :=
      mapOn_of_not_mem fun hin => absurd hin.1 (not_le.mpr hi)
    exact hperm
  · exact hptr ▸ Nat.le_add_right _ _

/-- A buffer that is longer than a word can say is cut off. -/
lemma writeFrom_take (m : MMU) (buf : List U8) (addr : U64) :
    m.writeFrom (buf.take (buf.length % 2 ^ 64)) addr = m.writeFrom buf addr := by
  set n := buf.length % 2 ^ 64 with hn
  have hlt : n < 2 ^ 64 := Nat.mod_lt _ (by positivity)
  have hlen : (buf.take n).length = n := by
    rw [List.length_take]
    exact min_eq_left (Nat.mod_le _ _)
  have hword : BitVec.ofNat 64 (buf.take n).length = BitVec.ofNat 64 buf.length := by
    apply BitVec.eq_of_toNat_eq
    rw [hlen, BitVec.toNat_ofNat, BitVec.toNat_ofNat, hn, Nat.mod_mod]
  have hloop : ∀ m' : MMU, (forRange addr (addr + BitVec.ofNat 64 buf.length)).foldlM (fun m i => do
        let b ← orFault Fault.outOfBounds (buf.take n)[(i - addr).toNat]?
        m.writeByte i b) m'
      = (forRange addr (addr + BitVec.ofNat 64 buf.length)).foldlM (fun m i => do
        let b ← orFault Fault.outOfBounds buf[(i - addr).toNat]?
        m.writeByte i b) m' := by
    refine foldlM_congr fun j hj m' => ?_
    obtain ⟨hlo, hhi⟩ := mem_forRange.mp hj
    have hend : (addr + BitVec.ofNat 64 buf.length).toNat ≤ addr.toNat + n := by
      rw [BitVec.toNat_add, BitVec.toNat_ofNat, ← hn]
      exact Nat.mod_le _ _
    have hoff : (j - addr).toNat < n := by
      have hj' := j.isLt
      rw [BitVec.toNat_sub]
      omega
    rw [List.getElem?_take_of_lt hoff]
  simp only [writeFrom, hword, hloop]

/-- A write goes to bytes that can be written, however long its buffer is. -/
lemma guarded_writeFrom (hm : m.Backed) {buf : List U8} {addr : U64}
    (h : m.writeFrom buf addr = .ok m') : Guarded i m m' := by
  have hlt : (buf.take (buf.length % 2 ^ 64)).length < 2 ^ 64 := by
    rw [List.length_take]
    exact lt_of_le_of_lt (min_le_left _ _) (Nat.mod_lt _ (by positivity))
  rw [← writeFrom_take] at h
  obtain ⟨-, hw, rfl⟩ | ⟨-, rfl⟩ := writeFrom_cases hm hlt h
  · exact guarded_written hw
  · exact .refl i _

/-- **No operation of a guest gets around the permissions.** -/
lemma guarded_of_guest (hm : m.Backed) {op : Op} (hguest : op.ofGuest = true)
    (h : m.applyOp op = .ok m') : Guarded i m m' := by
  have hcases := applyOp_cases hm h
  cases op with
  | store addr data sz =>
      obtain ⟨n, -, ⟨-, hw, rfl⟩ | ⟨-, rfl⟩⟩ := hcases
      · have hw' : m.Writable addr (split n data).length := by rwa [length_split]
        exact (guarded_written hw').mark addr
      · exact (Guarded.refl i m).mark addr
  | writeFrom buf hbuf startAddr => exact guarded_writeFrom hm h
  | setPerms addr size perm => cases hguest
  | allocate size =>
      obtain ⟨hfit, rfl⟩ := hcases
      exact guarded_allocated hfit

lemma Moved.guarded (hm : m.Backed) (h : m.Moved m') : Guarded i m m' := by
  rcases h with rfl | ⟨op, hguest, hop⟩
  · exact .refl i _
  · exact guarded_of_guest hm hguest hop

end MMU

namespace VEmu

variable {shift : U64 → Bool} {host : Host} {s s' : VEmu} {calls : List Call}
  {events : List Event} {i : ℕ}

/-! ## Runs -/

lemma guarded_of_run (hs : s.Intact host)
    (h : events.foldlM (stepNoting shift host) (.next s, []) = .ok (.next s', calls)) :
    MMU.Guarded i s.bus.mmu s'.bus.mmu :=
  moved_of_run (.refl i) .trans (fun hm hguest hop => MMU.guarded_of_guest hm hguest hop)
    hs.memory h

/-- **Nothing becomes executable**, and what is executable and could not be written at the start is
what it was then. -/
theorem executable_kept (hs : s.Intact host)
    (h : events.foldlM (stepNoting shift host) (.next s, []) = .ok (.next s', calls))
    (hexec : s'.bus.mmu.CanExec i) :
    s.bus.mmu.CanExec i ∧ (¬ s.bus.mmu.CanWrite i → s.bus.mmu.SameByte s'.bus.mmu i) :=
  (guarded_of_run hs h).exec hexec

/-- **Read-only memory is never written**, by no instruction and by no system call. -/
theorem readOnly_kept (hs : s.Intact host)
    (h : events.foldlM (stepNoting shift host) (.next s, []) = .ok (.next s', calls))
    (hi : i < s.bus.mmu.allocPtr.toNat) (hw : ¬ s.bus.mmu.CanWrite i) :
    s.bus.mmu.SameByte s'.bus.mmu i := (guarded_of_run hs h).below hi hw

/-! ## The image of a program -/

/-- The constructor has come from the memory `m` to this state, with the byte guarded. -/
structure GuardedFrom (m : MMU) (i : ℕ) (s : VEmu) : Prop where
  guarded : MMU.Guarded i m s.bus.mmu
  backed : s.bus.mmu.Backed

namespace GuardedFrom

variable {m : MMU}

/-- From the loaded image on, every operation is one that a guest could cause. -/
lemma setupStep (hs : GuardedFrom m i s) (h : SetupStep s s') : GuardedFrom m i s' := by
  cases h with
  | name fName => exact ⟨hs.guarded, hs.backed⟩
  | register r v => exact ⟨hs.guarded, hs.backed⟩
  | allocate h =>
      have hmoved := MMU.moved_allocate h
      exact ⟨hs.guarded.trans (hmoved.guarded hs.backed), hmoved.backed hs.backed⟩
  | write h => exact ⟨hs.guarded.trans (MMU.guarded_writeFrom hs.backed h),
      (MMU.writeFrom_sameShape h).backed hs.backed⟩
  | store h =>
      have hmoved := store_moves h
      exact ⟨hs.guarded.trans (hmoved.guarded hs.backed), hmoved.backed hs.backed⟩

lemma setup (hs : GuardedFrom m i s) (h : ReflTransGen SetupStep s s') : GuardedFrom m i s' := by
  induction h with
  | refl => exact hs
  | tail _ hstep ih => exact ih.setupStep hstep

end GuardedFrom

section

variable {junk : Junk} {decoder : InstructionDecoder} {hostCalls : ℕ} {info : FileInfo}
  {args : List (List U8)} {memSize : U64} {p : U8 × U8}

/-- **The image is there when the program starts**: what the constructor puts on the stack after
the segments are loaded does not touch their read-only bytes. -/
lemma image_ofInfo (h : ofInfo host junk decoder hostCalls info args memSize = .ok s)
    (hi : imageAt info.segments i = some p) (hp : p.2 &&& permWrite = 0) :
    i < s.bus.mmu.allocPtr.toNat ∧ i < s.bus.mmu.ramSize.toNat ∧ s.bus.mmu.ram.data i = p.1
      ∧ s.bus.mmu.bytePermission.data i = p.2 := by
  obtain ⟨s₀, m, hblank, hload, hsetup⟩ := ofInfo_setup h
  have hunused := unused_blank hblank
  have hm := (MMU.loadFile_sameShape hload).backed hunused.backed
  obtain ⟨hptr, hcontents⟩ := MMU.loadSegments_contents hunused.backed hload
  obtain ⟨hdata, hperm⟩ := Prod.mk.inj ((hcontents i).trans (congrArg (Option.getD · _) hi))
  have hbelow : i < m.allocPtr.toNat := hptr ▸ imageAt_lt (hunused.segments_lt hload) hi
  have hstart : GuardedFrom m i (s₀.withMmu m) := ⟨.refl i m, hm⟩
  have hguarded : MMU.Guarded i m s.bus.mmu := (hstart.setup hsetup).guarded
  have hsame := hguarded.below hbelow (not_not.mpr (hperm ▸ hp))
  refine ⟨lt_of_lt_of_le hbelow hguarded.allocPtr, ?_, hsame.data.trans hdata,
    hsame.perm.trans hperm⟩
  rw [hguarded.ramSize, (MMU.loadFile_sameShape hload).ramSize]
  -- outside RAM there is no segment
  by_contra hout
  rw [imageAt_eq_none fun seg hseg => le_trans
    (le_of_lt (MMU.loadSegments_fit hunused.backed hload seg hseg)) (not_lt.mp hout)] at hi
  cases hi

lemma image_of_run {history : List U32}
    (h : ofInfo host junk (.after .init history) hostCalls info args memSize = .ok s)
    (hi : imageAt info.segments i = some p) (hp : p.2 &&& permWrite = 0)
    (hrun : events.foldlM (stepNoting shift host) (.next s, []) = .ok (.next s', calls)) :
    i < s'.bus.mmu.ramSize.toNat ∧ s'.bus.mmu.ram.data i = p.1
      ∧ s'.bus.mmu.bytePermission.data i = p.2 := by
  obtain ⟨hbelow, hsize, hdata, hperm⟩ := image_ofInfo h hi hp
  have hs : s.Intact host := intact_ofInfo (InstructionDecoder.consistent_init.after history) h
  have hguarded : MMU.Guarded i s.bus.mmu s'.bus.mmu := guarded_of_run hs hrun
  have hsame := hguarded.below hbelow (not_not.mpr (hperm ▸ hp))
  exact ⟨hguarded.ramSize ▸ hsize, hsame.data.trans hdata, hsame.perm.trans hperm⟩

/-- At the address, the file has the word, in read-only segments. -/
def ReadOnlyWord (segs : List MemorySegment) (addr : ℕ) (w : U32) : Prop :=
  ∀ k < 4, ∃ perms, imageAt segs (addr + k) = some (w.extractLsb' (8 * k) 8, perms)
    ∧ perms &&& permWrite = 0

/-- **What is fetched from the text is the file's word.** -/
theorem fetch_image {history : List U32} (hb : host.build ≠ .test)
    (h : ofInfo host junk (.after .init history) hostCalls info args memSize = .ok s)
    (hrun : events.foldlM (stepNoting shift host) (.next s, []) = .ok (.next s', calls)) {w : U32}
    (hw : ReadOnlyWord info.segments s'.pc.toNat w) :
    s'.fetch host = .ok ((w, .NormalExecutionReturn), s') := by
  have hs : s.Intact host := intact_ofInfo (InstructionDecoder.consistent_init.after history) h
  have hbyte : ∀ k < 4, s'.pc.toNat + k < s'.bus.mmu.ramSize.toNat
      ∧ s'.bus.mmu.ram.data (s'.pc.toNat + k) = w.extractLsb' (8 * k) 8 := by
    intro k hk
    obtain ⟨perms, himage, hperms⟩ := hw k hk
    obtain ⟨hsize, hdata, -⟩ := image_of_run h himage hperms hrun
    exact ⟨hsize, hdata⟩
  have haddr : ∀ k < 4, (s'.pc + BitVec.ofNat 64 k).toNat = s'.pc.toNat + k := by
    intro k hk
    have hsize := s'.bus.mmu.ramSize.isLt
    have hlt := (hbyte k hk).1
    exact toNat_add_ofNat_of_le (by omega)
  have hmet : s'.FetchMet := fun k hk => (haddr k hk).symm ▸ (hbyte k hk).1
  have hword : s'.nextWord = w := by
    rw [nextWord, ← MMU.assemble_word w]
    congr 2
    refine List.map_congr_left fun k hk => ?_
    rw [haddr k (List.mem_range.mp hk), (hbyte k (List.mem_range.mp hk)).2]
  have hs' : s'.Intact host := ((NotedRun.start hs).run events hrun).1 s' rfl
  rw [fetch, if_neg hb, loadInsn_ok hs'.memory hmet, hword]
  rfl

end

/-! ## A program that stores -/

/-- `jal x0, 0` is the second word. -/
lemma readOnlyWord_storing : ReadOnlyWord storing.segments 0x1004 0x0000006F := by
  intro k hk
  refine ⟨permExec ||| permRead, ?_, by decide⟩
  interval_cases k <;> rfl

lemma imageAt_storing :
    imageAt storing.segments 0x1000 = some (0x23, permExec ||| permRead) := rfl

/-- The program stores, and its first byte can be executed still. -/
theorem executable_kept_storing : ∃ s s' : VEmu, ∃ calls,
    [Event.round, .receive 0x61, .round].foldlM (stepNoting (fun _ => false) (.bare .emu))
      (.next s, []) = .ok (.next s', calls)
    ∧ s'.belowStack ≠ s.belowStack
    ∧ s'.bus.mmu.CanExec 0x1000 ∧ s.bus.mmu.CanExec 0x1000 := by
  obtain ⟨s, s', calls, hs, hrun, hstored, -⟩ := run_storing
  have hexec : s'.bus.mmu.CanExec 0x1000 := by
    rw [MMU.CanExec, (image_of_run hs imageAt_storing (by decide) hrun).2.2]
    decide
  have hintact := intact_ofInfo (InstructionDecoder.consistent_init.after []) hs
  exact ⟨s, s', calls, hrun, hstored, hexec, (executable_kept hintact hrun hexec).1⟩

theorem readOnly_kept_storing : ∃ s s' : VEmu, ∃ calls,
    [Event.round, .receive 0x61, .round].foldlM (stepNoting (fun _ => false) (.bare .emu))
      (.next s, []) = .ok (.next s', calls)
    ∧ s'.belowStack ≠ s.belowStack
    ∧ ¬ s.bus.mmu.CanWrite 0x1000 ∧ s.bus.mmu.SameByte s'.bus.mmu 0x1000 := by
  obtain ⟨s, s', calls, hs, hrun, hstored, -⟩ := run_storing
  obtain ⟨hbelow, -, -, hperm⟩ := image_ofInfo hs imageAt_storing (by decide)
  have hnot : ¬ s.bus.mmu.CanWrite 0x1000 := by
    rw [MMU.CanWrite, hperm]
    decide
  have hintact := intact_ofInfo (InstructionDecoder.consistent_init.after []) hs
  exact ⟨s, s', calls, hrun, hstored, hnot, readOnly_kept hintact hrun hbelow hnot⟩

theorem fetch_image_storing : ∃ s s' : VEmu, ∃ calls,
    [Event.round, .receive 0x61, .round].foldlM (stepNoting (fun _ => false) (.bare .emu))
      (.next s, []) = .ok (.next s', calls)
    ∧ s'.belowStack ≠ s.belowStack
    ∧ s'.fetch (.bare .emu) = .ok ((0x0000006F, .NormalExecutionReturn), s') := by
  obtain ⟨s, s', calls, hs, hrun, hstored, hpc⟩ := run_storing
  refine ⟨s, s', calls, hrun, hstored, fetch_image (by decide) hs hrun ?_⟩
  rw [hpc]
  exact readOnlyWord_storing

end VEmu

end Vemu
