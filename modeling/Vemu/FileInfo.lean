import Vemu.Defs

/-!
# Program images

What is read from an executable file: the segments to load, each with the bytes that stand in
the file, and the entry point.  The bytes of a segment are an array of `file_size` bytes on the
heap, which is why the length is part of the type.
-/

namespace Vemu

structure MemorySegment where
  perms : U8
  startAddr : U64
  memSize : U64
  fileSize : U64
  data : List U8
  /-- The array has `file_size` bytes. -/
  length_data : data.length = fileSize.toNat

structure FileInfo where
  fileName : List U8
  segments : List MemorySegment
  entryPoint : U64

end Vemu
