import Vemu.Files.Positions

/-!
# Closing a file

`close` takes the first entry with its descriptor out of the table.  It should also return zero, and
the source leaves `a0` as it was: only a close of descriptor zero returns what it should.

What becomes of the table is right.  The descriptors in it stay distinct along every run in which
the host opens files with descriptors that the table does not have, and after a close, `lseek` finds
the descriptor no more until a file is opened with it again.  **`closes_iff`** puts this together.
-/

namespace Vemu

open Fallible Transition

namespace VEmu

namespace FileCall

variable {host : Host} {files files' : List FileHandle} {fh : FileHandle} {fd : U32} {c : FileCall}
  {s : VEmu}

/-! ## Descriptors -/

def descriptors (files : List FileHandle) : List U32 := files.map (·.fd)

/-- No two entries have one descriptor. -/
def Distinct (files : List FileHandle) : Prop := (descriptors files).Nodup

/-- The host opens a file with a descriptor that is not in the table.  It cannot do otherwise where the
descriptors of the table are open: the emulator never closes one of the host's. -/
def Fresh (host : Host) (files : List FileHandle) (c : FileCall) : Prop :=
  c.kind = .openFile → ∀ files' fh, perform host files c = .ok files' → files' = files ++ [fh] →
    fh.fd ∉ descriptors files

/-- A call opens a file with the descriptor. -/
def Reopens (host : Host) (fd : U32) (files : List FileHandle) (c : FileCall) : Prop :=
  c.kind = .openFile ∧ ∃ files', perform host files c = .ok files' ∧ fd ∈ descriptors files'

/-- An `lseek` of the descriptor is turned down. -/
def SeekFails (host : Host) (fd : U32) (files : List FileHandle) (c : FileCall) : Prop :=
  c.kind = .lseek → (c.emu.loadReg regA0).setWidth 32 = fd → Rejects host files c

/-! ## The specification -/

/-- **What is asked of a `close`** of an entry of the table. -/
structure Closes (host : Host) (s : VEmu) (fh : FileHandle) : Prop where
  /-- The call goes through. -/
  returns : ∃ s', sysClose s = .ok (.NormalExecutionReturn, s')
  zero : ∀ s', sysClose s = .ok (.NormalExecutionReturn, s') → s'.loadReg regA0 = 0
  /-- The entry goes, and the others stay as they are, in their order. -/
  removed : ∀ s', sysClose s = .ok (.NormalExecutionReturn, s') →
    ∃ before after, s.fileTable = before ++ fh :: after ∧ s'.fileTable = before ++ after
  /-- Until it is opened again, the descriptor cannot be sought. -/
  gone : ∀ s', sysClose s = .ok (.NormalExecutionReturn, s') → ∀ later : List FileCall,
    AllTries (perform host) (fun files c => ¬ Reopens host fh.fd files c) s'.fileTable later →
      AllTries (perform host) (SeekFails host fh.fd) s'.fileTable later

/-- Every `close` of an entry does what is asked. -/
def ClosesWell (host : Host) (files : List FileHandle) (c : FileCall) : Prop :=
  c.kind = .close → ∀ fh ∈ files, fh.fd = (c.emu.loadReg regA0).setWidth 32 →
    Closes host (c.enter files) fh

/-- What is closed is descriptor zero. -/
def ClosesZero (files : List FileHandle) (c : FileCall) : Prop :=
  c.kind = .close → (∃ fh ∈ files, fh.fd = (c.emu.loadReg regA0).setWidth 32) →
    c.emu.loadReg regA0 = 0

/-! ## The call -/

lemma sysClose_of_open (hmem : fh ∈ s.fileTable) (hfd : fh.fd = (s.loadReg regA0).setWidth 32) :
    sysClose s = normal { s with
      fileTable := s.fileTable.eraseP (·.fd = (s.loadReg regA0).setWidth 32) } :=
  if_pos (List.any_eq_true.mpr ⟨fh, hmem, decide_eq_true hfd⟩)

lemma Distinct.eq_of_fd (h : Distinct files) {fh' : FileHandle} (hmem : fh ∈ files)
    (hmem' : fh' ∈ files) (hfd : fh.fd = fh'.fd) : fh = fh' :=
  List.inj_on_of_nodup_map h hmem hmem' hfd

/-- Erasing the entry of a descriptor splits the table at that entry. -/
lemma Distinct.eraseP (h : Distinct files) (hmem : fh ∈ files) :
    ∃ before after, files = before ++ fh :: after
      ∧ files.eraseP (·.fd = fh.fd) = before ++ after := by
  obtain ⟨x, before, after, -, hx, hfiles, herase⟩ :=
    List.exists_of_eraseP hmem (p := fun x => decide (x.fd = fh.fd)) (by simp)
  have hxmem : x ∈ files := by
    rw [hfiles]
    simp
  obtain rfl := h.eq_of_fd hxmem hmem (of_decide_eq_true hx)
  exact ⟨before, after, hfiles, herase⟩

/-! ## The table after a call -/

lemma descriptors_moveTo (fd : U64) (pos : FileHandle → U64) (files : List FileHandle) :
    descriptors (moveTo fd pos files) = descriptors files := by
  rw [moveTo]
  induction files with
  | nil => rfl
  | cons fh files ih =>
      rw [updateFirst]
      split_ifs
      · rfl
      · exact congrArg (fh.fd :: ·) ih

/-- What a call does to the descriptors of the table. -/
lemma descriptors_perform (h : perform host files c = .ok files') :
    (c.kind = .openFile ∧ ∃ fh, files' = files ++ [fh])
      ∨ (c.kind ≠ .openFile ∧ (descriptors files').Sublist (descriptors files)) := by
  obtain ⟨e, s, hcall, rfl⟩ := perform_eq_ok_iff.mp h
  obtain ⟨kind, emu⟩ := c
  cases kind with
  | openFile =>
      obtain ⟨fh, -, -, hfiles⟩ := sysOpen_fileTable hcall
      exact Or.inl ⟨rfl, fh, hfiles⟩
  | lseek =>
      refine Or.inr ⟨by simp, ?_⟩
      cases hopen : openedIn files (emu.loadReg regA0) with
      | none =>
          obtain ⟨-, rfl⟩ := Prod.mk.inj (Except.ok.inj ((sysLseek_of_none hopen).symm.trans hcall))
          exact List.Sublist.refl _
      | some fh =>
          obtain ⟨t, -, hfiles⟩ := sysLseek_fileTable hopen hcall
          rw [hfiles, descriptors_moveTo]
          exact List.Sublist.refl _
  | read =>
      refine Or.inr ⟨by simp, ?_⟩
      obtain ⟨fh, -, hfiles⟩ := sysRead_fileTable hcall
      rw [hfiles, descriptors_moveTo]
      exact List.Sublist.refl _
  | close =>
      refine Or.inr ⟨by simp, ?_⟩
      unfold handler sysClose at hcall
      dsimp only at hcall
      split_ifs at hcall
      · obtain ⟨-, rfl⟩ := Prod.mk.inj (Except.ok.inj hcall)
        exact (List.eraseP_sublist).map _
      · obtain ⟨-, rfl⟩ := Prod.mk.inj (Except.ok.inj hcall)
        exact List.Sublist.refl _

/-- Descriptors stay distinct where the host opens files with new ones. -/
lemma Distinct.perform (h : Distinct files) (hfresh : Fresh host files c)
    (hs : perform host files c = .ok files') : Distinct files' := by
  rcases descriptors_perform hs with ⟨hkind, fh, rfl⟩ | ⟨-, hsub⟩
  · have hnew := hfresh hkind _ fh hs rfl
    rw [Distinct, descriptors, List.map_append, List.nodup_append']
    refine ⟨h, by simp, ?_⟩
    simpa [descriptors] using hnew
  · exact h.sublist hsub

/-- A descriptor that is not in the table stays out of it until it is opened. -/
lemma absent_perform (h : fd ∉ descriptors files) (hre : ¬ Reopens host fd files c)
    (hs : perform host files c = .ok files') : fd ∉ descriptors files' := by
  rcases descriptors_perform hs with ⟨hkind, -⟩ | ⟨-, hsub⟩
  · exact fun hmem => hre ⟨hkind, files', hs, hmem⟩
  · exact fun hmem => h (hsub.subset hmem)

/-- A descriptor that is not in the table cannot be sought. -/
lemma seekFails_of_absent (h : fd ∉ descriptors files) : SeekFails host fd files c := by
  obtain ⟨kind, emu⟩ := c
  rintro rfl hfd
  have hnone : openedIn files (emu.loadReg regA0) = none := by
    refine List.find?_eq_none.mpr fun fh hmem hhas => h ?_
    rw [← hfd, ← fd_of_hasFd hhas]
    exact List.mem_map_of_mem hmem
  refine ⟨_, sysLseek_of_none hnone, loadReg_storeReg_self _ (by decide) _, rfl⟩

/-- After a close the descriptor is gone. -/
lemma absent_of_split {before after : List FileHandle} (h : Distinct (before ++ fh :: after)) :
    fh.fd ∉ descriptors (before ++ after) := by
  have hsplit : fh.fd ∉ descriptors before ∧ fh.fd ∉ descriptors after := by
    rw [Distinct, descriptors, List.map_append, List.map_cons, List.nodup_append'] at h
    obtain ⟨-, hafter, hdisjoint⟩ := h
    exact ⟨fun hmem => hdisjoint hmem (List.mem_cons_self ..), (List.nodup_cons.mp hafter).1⟩
  rw [descriptors, List.map_append, List.mem_append]
  exact not_or.mpr hsplit

/-- **A close** of an entry does what is asked exactly where the descriptor is zero. -/
lemma closes_iff_zero (h : Distinct s.fileTable) (hmem : fh ∈ s.fileTable)
    (hfd : fh.fd = (s.loadReg regA0).setWidth 32) :
    Closes host s fh ↔ s.loadReg regA0 = 0 := by
  have hclose := sysClose_of_open hmem hfd
  rw [← hfd] at hclose
  obtain ⟨before, after, hfiles, herase⟩ := h.eraseP hmem
  constructor
  · intro hcloses
    obtain ⟨s', hs'⟩ := hcloses.returns
    have hzero := hcloses.zero s' hs'
    obtain ⟨-, rfl⟩ := Prod.mk.inj (Except.ok.inj (hclose.symm.trans hs'))
    exact hzero
  · intro hzero
    refine ⟨⟨_, hclose⟩, fun s' hs' => ?_, fun s' hs' => ?_, fun s' hs' later hlater => ?_⟩
    all_goals obtain ⟨-, rfl⟩ := Prod.mk.inj (Except.ok.inj (hclose.symm.trans hs'))
    · exact hzero
    · exact ⟨before, after, hfiles, herase⟩
    · have habsent : fh.fd ∉ descriptors (s.fileTable.eraseP (·.fd = fh.fd)) := by
        rw [herase]
        exact absent_of_split (hfiles ▸ h)
      exact @AllTries.imp _ _ _ (perform host) (fun files => fh.fd ∉ descriptors files) _ _
        (fun _ _ hno _ => seekFails_of_absent hno)
        (fun _ _ _ hno hre hs => absent_perform hno hre hs) _ later habsent hlater

/-! ## Runs -/

/-- **Closing files** along a run of calls, from any table with distinct descriptors: they stay
distinct, and every close does what is asked exactly where what is closed is descriptor zero. -/
theorem closes_iff (host : Host) (calls : List FileCall) (hfiles : Distinct files)
    (hfresh : AllTries (perform host) (Fresh host) files calls) :
    AllStates (perform host) Distinct files calls ∧ AllTries (perform host) (ClosesWell host) files calls
      ↔ AllTries (perform host) ClosesZero files calls := by
  have hdistinct : AllStates (perform host) Distinct files calls :=
    allStates_of_allSteps (fun _ _ _ h hf hs => Distinct.perform h hf hs) (fun _ h => h) calls hfiles
      hfresh.allSteps
  have hstep : ∀ files c, Distinct files →
      (ClosesWell host files c ∧ Fresh host files c ↔ ClosesZero files c ∧ Fresh host files c) := by
    intro files c h
    refine and_congr_left fun _ => ⟨fun hwell hkind hopen => ?_, fun hzero hkind fh hmem hfd => ?_⟩
    · obtain ⟨fh, hmem, hfd⟩ := hopen
      exact (@closes_iff_zero host fh (c.enter files) h hmem hfd).mp (hwell hkind fh hmem hfd)
    · exact (@closes_iff_zero host fh (c.enter files) h hmem hfd).mpr (hzero hkind ⟨fh, hmem, hfd⟩)
  have hiff := allTries_iff hstep (fun _ _ _ h hf hs => Distinct.perform h hf.2 hs) calls hfiles
  rw [allTries_and_iff, allTries_and_iff] at hiff
  constructor
  · rintro ⟨-, hwell⟩
    exact (hiff.mp ⟨hwell, hfresh⟩).1
  · intro hzero
    exact ⟨hdistinct, (hiff.mpr ⟨hzero, hfresh⟩).1⟩

/-! ### Standard streams -/

lemma distinct_standard : Distinct standardFiles := by
  unfold Distinct
  decide

instance : Decidable (Fresh host files c) :=
  decidable_of_iff (c.kind = .openFile → ∀ files' ∈ (perform host files c).toOption,
      ∀ fh ∈ files'.getLast?, files' = files ++ [fh] → fh.fd ∉ descriptors files) <| by
    refine imp_congr_right fun _ => ⟨fun h files' fh hs hfiles => ?_, fun h files' hs fh _ => ?_⟩
    · exact h files' (by rw [hs]; rfl) fh (by rw [hfiles, List.getLast?_concat]; rfl) hfiles
    · cases hperform : perform host files c with
      | error f =>
          rw [hperform] at hs
          cases hs
      | ok files₁ =>
          rw [hperform] at hs
          obtain rfl := Option.some.inj hs
          exact h _ fh hperform

instance : Decidable (ClosesZero files c) := inferInstanceAs (Decidable (_ → _ → _))

/-- A host that numbers what it opens from three on. -/
def numberingHost : Host :=
  { Host.bare .fuzz with openFile := fun n _ _ => some ⟨BitVec.ofNat 32 (3 + n), 5, fun _ => 7⟩ }

/-- The call is the `n`-th that asks the host. -/
def asking (n : ℕ) (c : FileCall) : FileCall := { c with emu := { c.emu with hostCalls := n } }

/-- A file is opened, standard input is closed and sought, and the file is opened again. -/
def closeBetween : List FileCall :=
  [(callWith .openFile 0x100 0 0).asking 0, callWith .close 0 0 0, callWith .lseek 0 0 0,
    (callWith .openFile 0x100 0 0).asking 1]

/-- Standard input is closed as it should be. -/
theorem closes_stdin :
    AllTries (perform numberingHost) (ClosesWell numberingHost) standardFiles closeBetween
      ∧ (closeBetween.foldlM (perform numberingHost) standardFiles >>= fun files =>
          .ok (descriptors files)) = .ok [1, 2, 3, 4] :=
  ⟨((closes_iff numberingHost closeBetween distinct_standard (by decide +kernel)).mpr
    (by decide +kernel)).2, by decide +kernel⟩

/-- Closing standard error returns its descriptor. -/
theorem not_closes_stderr :
    (sysClose ((callWith .close 2 0 0).enter standardFiles) >>= fun r =>
        .ok (r.1, r.2.loadReg regA0)) = .ok (.NormalExecutionReturn, 2)
      ∧ ¬ ∀ host files calls, Distinct files → AllTries (perform host) (Fresh host) files calls →
          AllTries (perform host) (ClosesWell host) files calls := by
  refine ⟨by decide +kernel, fun h => ?_⟩
  have hwell := (h (.bare .fuzz) standardFiles [callWith .close 2 0 0] distinct_standard
    (by decide +kernel)).1
  have hmem : (⟨none, none, 2, 0, 0, .Stderr⟩ : FileHandle) ∈ standardFiles := by decide
  have hzero := (@closes_iff_zero (.bare .fuzz) _ ((callWith .close 2 0 0).enter standardFiles)
    distinct_standard hmem rfl).mp (hwell rfl _ hmem rfl)
  exact absurd hzero (by decide)

end FileCall

end VEmu

end Vemu
