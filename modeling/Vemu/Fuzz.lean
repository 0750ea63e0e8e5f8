import Vemu.Loader
import Vemu.Lib.OrderedMap

/-!
# The fuzzing loop

`FuzzThread::dispatch` takes a free file of the corpus, mutates some bytes of the target, builds
an emulator from it, writes the old bytes back, and runs the emulator.  The random numbers are a
stream: `genRandStream` is the one of the generator, and the loop is given for any.

`Surroundings` is what the loop depends on besides its own state: the host, the stream, what the
members of the emulators happen to hold, and how long the two loops without a bound may go on,
the search for a free file and the run of an emulator.  A loop that is cut off is no result of
the program (`Stop.cutOff`).
-/

namespace Vemu

open Fallible OrderedMap

/-! ## Random numbers -/

def nextSeed (x : U64) : U64 :=
  let x := x ^^^ (x >>> 12)
  let x := x ^^^ (x <<< 25)
  x ^^^ (x >>> 27)

def seedAt : ℕ → U64
  | 0 => 123456789
  | n + 1 => nextSeed (seedAt n)

/-- What the `n`-th call of `gen_rand` returns. -/
def genRandStream (n : ℕ) : U64 := nextSeed (seedAt n) * 0x2545F4914F6CDD1D

/-- A random number below a bound.  The remainder by zero has no value. -/
def below (x : U64) (n : ℕ) : Except Fault ℕ :=
  if n = 0 then .error .divisionByZero else .ok (x.toNat % n)

/-! ## Bytes of an image -/

/-- A segment and a byte of it. -/
abbrev Position := ℕ × ℕ

namespace MemorySegment

def setByte (seg : MemorySegment) (i : ℕ) (b : U8) : MemorySegment :=
  { seg with data := seg.data.set i b, length_data := by rw [List.length_set, seg.length_data] }

end MemorySegment

namespace FileInfo

/-- The byte at a position, if there is one. -/
def byteAt (info : FileInfo) (pos : Position) : Option U8 :=
  info.segments[pos.1]? >>= fun seg => seg.data[pos.2]?

def setByte (info : FileInfo) (pos : Position) (b : U8) : Except Fault FileInfo :=
  if (info.byteAt pos).isSome then
    .ok { info with segments := info.segments.modify pos.1 (·.setByte pos.2 b) }
  else .error .outOfBounds

/-- The bytes of all segments. -/
def bytes (info : FileInfo) : List (List U8) := info.segments.map (·.data)

end FileInfo

/-! ## Mutations -/

/-- The old byte of every position that was written to. -/
abbrev MutationHistory := List (Position × U8)

/-- The order of the history's map, which compares the segment first.  Both numbers are words. -/
def positionRank (pos : Position) : ℕ := pos.1 * 2 ^ 64 + pos.2

/-- `push_mutate`, with the number of random numbers drawn so far. -/
def pushMutate (stream : ℕ → U64) :
    ℕ → ℕ → FileInfo → MutationHistory → Except Fault (ℕ × FileInfo × MutationHistory)
  | 0, drawn, info, history => .ok (drawn, info, history)
  | nBytes + 1, drawn, info, history => do
      let segIdx ← below (stream drawn) info.segments.length
      let seg ← orFault .outOfBounds info.segments[segIdx]?
      let byteIdx ← below (stream (drawn + 1)) seg.fileSize.toNat
      let pos := (segIdx, byteIdx)
      let old ← orFault .outOfBounds (info.byteAt pos)
      let history :=
        if find? history pos = none then insertNew positionRank pos old history else history
      let info ← info.setByte pos (BitVec.ofNat 8 ((stream (drawn + 2)).toNat % 255))
      pushMutate stream nBytes (drawn + 3) info history

def popMutate (info : FileInfo) (history : MutationHistory) : Except Fault FileInfo :=
  history.foldlM (fun info e => info.setByte e.1 e.2) info

/-! ## The corpus -/

structure CorpusFile where
  info : FileInfo
  locked : Bool

structure Corpus where
  files : List CorpusFile
  /-- The size of a vector is a word. -/
  length_lt : files.length < 2 ^ 64

namespace Corpus

def size (c : Corpus) : ℕ := c.files.length

def update (c : Corpus) (i : ℕ) (f : CorpusFile → CorpusFile) : Corpus where
  files := c.files.modify i f
  length_lt := by rw [List.length_modify]; exact c.length_lt

def lock (c : Corpus) (i : ℕ) : Corpus := c.update i fun f => { f with locked := true }

end Corpus

/-! ## The loop -/

/-- The process ended, or a loop was cut off. -/
inductive Stop
  | fault (f : Fault)
  | cutOff
  deriving DecidableEq, Repr

def Stop.lift {α : Type} : Except Fault α → Except Stop α
  | .ok a => .ok a
  | .error f => .error (.fault f)

structure Surroundings where
  host : Host
  stream : ℕ → U64
  tries : ℕ
  rounds : ℕ → ℕ
  junk : ℕ → Junk
  /-- What the process's decoder has decoded before the `k`-th emulator. -/
  history : ℕ → List U32
  hostCalls : ℕ → ℕ

structure FuzzThread where
  corpus : Corpus
  target : FileInfo
  fuzzOpts : List (List U8)
  /-- How many random numbers have been drawn. -/
  drawn : ℕ

/-- The two characters of `{}`. -/
def placeholder : List U8 := [0x7B, 0x7D]

def substituteInput (args : List (List U8)) (inputName : List U8) : List (List U8) :=
  args.map fun arg => if arg = placeholder then inputName else arg

def defaultMemSize : U64 := 128 * 1024 * 1024

/-- `get_random_free_file`: the index of the file, which is locked, and the numbers drawn. -/
def getRandomFreeFile (stream : ℕ → U64) (c : Corpus) : ℕ → ℕ → Except Stop (ℕ × ℕ)
  | 0, _ => .error .cutOff
  | tries + 1, drawn => do
      let idx ← Stop.lift (below (stream drawn) c.size)
      let f ← Stop.lift (orFault .outOfBounds c.files[idx]?)
      if f.locked then getRandomFreeFile stream c tries (drawn + 1)
      else return (idx, drawn + 1)

/-- Where an iteration stands before `pop_mutate`. -/
structure AtPop where
  thread : FuzzThread
  input : ℕ
  inputInfo : FileInfo
  history : MutationHistory
  emulator : VEmu

namespace FuzzThread

/-- The `k`-th iteration up to `pop_mutate`: the corpus with the file locked, the target with its
mutations, and the emulator built from it. -/
def prepare (env : Surroundings) (k : ℕ) (t : FuzzThread) : Except Stop AtPop := do
  let (input, drawn) ← getRandomFreeFile env.stream t.corpus env.tries t.drawn
  let corpus := t.corpus.lock input
  let f ← Stop.lift (orFault .outOfBounds corpus.files[input]?)
  let nBytes := (env.stream drawn % 8).toNat
  let (drawn, target, history) ← Stop.lift (pushMutate env.stream nBytes (drawn + 1) t.target [])
  let em ← Stop.lift (VEmu.ofInfo env.host (env.junk k) (.after .init (env.history k))
    (env.hostCalls k) target (substituteInput t.fuzzOpts (VEmu.cString f.info.fileName)) defaultMemSize)
  return { thread := { t with corpus := corpus, target := target, drawn := drawn }
           input := input, inputInfo := f.info, history := history, emulator := em }

/-- The thread with the file that `pop_mutate` was applied to. -/
def withInput (p : AtPop) (info : FileInfo) : FuzzThread :=
  { p.thread with corpus := p.thread.corpus.update p.input fun f => { f with info := info } }

def iteration (env : Surroundings) (k : ℕ) (t : FuzzThread) : Except Stop FuzzThread := do
  let p ← t.prepare env k
  let info ← Stop.lift (popMutate p.inputInfo p.history)
  let turn ← Stop.lift (VEmu.run env.host (env.rounds k) p.emulator)
  match turn with
  | .returned _ => return withInput p info
  | .next _ => .error .cutOff

/-- **`FuzzThread::dispatch`**. -/
def dispatch (env : Surroundings) : ℕ → FuzzThread → Except Stop FuzzThread
  | 0, t => .ok t
  | runs + 1, t => dispatch env runs t >>= iteration env runs

end FuzzThread

end Vemu
