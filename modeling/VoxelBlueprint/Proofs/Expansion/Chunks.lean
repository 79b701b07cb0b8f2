/-
# Chunks

How many chunks there are comes from a division, and what is in a chunk from cutting a slice off
the blocks again and again. Both fit together at every remainder, because the division says just
which slices have a block in them: the `i`-th one does if `i` whole slices leave a block over.

Key definitions: `Blueprint.payloads`, `Blueprint.HandedOver`.
Key theorems: `Blueprint.lt_chunkCount`, `Blueprint.getElem?_slices`, `Blueprint.flatten_slices`,
`Blueprint.chunks_partition`.
-/
import Mathlib.Data.List.Basic
import VoxelBlueprint.Blueprint

namespace VoxelBlueprint

/-- The items of the array in a field, of which there are none if it is no array. -/
def Json.items (name : String) (value : Json) : List Json :=
  (value.field name).array?.getD []

namespace Blueprint

/-- The chunks of a blueprint as they are handed over. -/
def payloads (b : Blueprint) (size : Int) : Except Failure (List Json) :=
  (b.chunks size).map (List.map Chunk.toJson)

/-- What holds of the payloads in which a blueprint is handed over. -/
structure HandedOver (b : Blueprint) (size : Int) (payloads : List Json) : Prop where
  /-- No block is lost, repeated or moved. -/
  blocks : payloads.flatMap (Json.items "blocks") = b.toJson.items "blocks"
  nonempty : ∀ p ∈ payloads, 1 ≤ (p.items "blocks").length
  le_size : ∀ p ∈ payloads, ((p.items "blocks").length : Int) ≤ size
  /-- Only the last payload may have room left. -/
  full : ∀ p ∈ payloads.dropLast, ((p.items "blocks").length : Int) = size
  indices : payloads.map (Json.field "chunk") =
    (List.range payloads.length).map fun i : Nat => Json.int i
  totals : ∀ p ∈ payloads, p.field "totalChunks" = .int payloads.length
  eq_nil_iff : payloads = [] ↔ b.blocks = []

/-! ### Slices -/

section Slices

variable {size count i n : Nat} {blocks : List Block}

/-- **The slices that are counted are those with a block in them.** -/
theorem lt_chunkCount (hs : 0 < size) : i < chunkCount size n ↔ i * size < n := by
  rw [chunkCount, ← Nat.succ_le_iff, Nat.le_div_iff_mul_le hs, Nat.succ_mul]
  omega

theorem length_slices (size : Nat) : ∀ (count : Nat) (blocks : List Block),
    (slices size count blocks).length = count
  | 0, _ => rfl
  | count + 1, blocks => congrArg (· + 1) (length_slices size count (blocks.drop size))

/-- A slice is what stands behind the slices before it. -/
theorem getElem?_slices (size : Nat) : ∀ {count i : Nat} {blocks : List Block}, i < count →
    (slices size count blocks)[i]? = some ((blocks.drop (i * size)).take size)
  | count + 1, 0, blocks, _ => by rw [Nat.zero_mul, List.drop_zero]; rfl
  | count + 1, i + 1, blocks, h => by
    rw [slices, List.getElem?_cons_succ, getElem?_slices size (Nat.lt_of_succ_lt_succ h),
      List.drop_drop, Nat.succ_mul, Nat.add_comm size]

theorem flatten_slices (size : Nat) : ∀ (count : Nat) (blocks : List Block),
    (slices size count blocks).flatten = blocks.take (count * size)
  | 0, blocks => by rw [Nat.zero_mul, List.take_zero]; rfl
  | count + 1, blocks => by
    rw [slices, List.flatten_cons, flatten_slices size count, Nat.succ_mul, Nat.add_comm,
      List.take_add]

/-- As many slices as are counted have all blocks. -/
theorem flatten_slices_chunkCount (hs : 0 < size) (blocks : List Block) :
    (slices size (chunkCount size blocks.length) blocks).flatten = blocks := by
  have hall : blocks.length ≤ chunkCount size blocks.length * size :=
    Nat.not_lt.mp fun h => Nat.lt_irrefl _ ((lt_chunkCount hs).mpr h)
  rw [flatten_slices, List.take_of_length_le hall]

/-- A slice that is counted has blocks, and is full if another one is counted behind it. -/
theorem length_slice (hs : 0 < size) (hi : i < chunkCount size blocks.length) {slice : List Block}
    (h : (slices size (chunkCount size blocks.length) blocks)[i]? = some slice) :
    1 ≤ slice.length ∧ slice.length ≤ size ∧
      (i + 1 < chunkCount size blocks.length → slice.length = size) := by
  have hblock := (lt_chunkCount hs).mp hi
  rw [getElem?_slices size hi] at h
  obtain rfl := Option.some.inj h
  rw [List.length_take, List.length_drop]
  refine ⟨by omega, by omega, fun hnext => ?_⟩
  have hnext := (lt_chunkCount hs).mp hnext
  rw [Nat.succ_mul] at hnext
  omega

end Slices

/-! ### Chunks of a positive size -/

/-- The chunks of a positive size. -/
def cut (b : Blueprint) (size : Nat) : List Chunk :=
  (slices size (chunkCount size b.blocks.length) b.blocks).mapIdx fun index blocks =>
    { blocks, index, total := chunkCount size b.blocks.length }

theorem payloads_of_pos (b : Blueprint) {size : Int} (hs : 1 ≤ size) :
    b.payloads size = .ok ((b.cut size.toNat).map Chunk.toJson) := by
  rw [payloads, chunks, if_neg (by omega)]
  rfl

section Cutting

variable {b : Blueprint} {size i : Nat} {chunk : Chunk}

theorem length_cut : (b.cut size).length = chunkCount size b.blocks.length := by
  rw [cut, List.length_mapIdx, length_slices]

/-- A chunk knows its place and how many chunks there are. -/
theorem getElem?_cut (h : (b.cut size)[i]? = some chunk) :
    i < chunkCount size b.blocks.length ∧ chunk.index = i ∧ chunk.total = (b.cut size).length ∧
      (slices size (chunkCount size b.blocks.length) b.blocks)[i]? = some chunk.blocks := by
  have hi : i < (b.cut size).length := (List.getElem?_eq_some_iff.mp h).1
  rw [cut, List.getElem?_mapIdx] at h
  obtain ⟨slice, hslice, rfl⟩ := Option.map_eq_some_iff.mp h
  exact ⟨length_cut ▸ hi, rfl, length_cut.symm, hslice⟩

theorem map_index_cut : (b.cut size).map Chunk.index = List.range (b.cut size).length := by
  refine List.ext_getElem (by rw [List.length_map, List.length_range]) fun i h _ => ?_
  rw [List.length_map] at h
  obtain ⟨-, hindex, -⟩ := getElem?_cut (List.getElem?_eq_getElem h)
  rw [List.getElem_map, List.getElem_range, hindex]

theorem flatMap_blocks_cut (b : Blueprint) (hs : 0 < size) :
    (b.cut size).flatMap Chunk.blocks = b.blocks := by
  have hmap : (b.cut size).map Chunk.blocks =
      slices size (chunkCount size b.blocks.length) b.blocks := by
    refine List.ext_getElem (by rw [List.length_map, length_cut, length_slices]) fun i h h' => ?_
    rw [List.length_map] at h
    obtain ⟨-, -, -, hslice⟩ := getElem?_cut (List.getElem?_eq_getElem h)
    rw [List.getElem?_eq_getElem h'] at hslice
    rw [List.getElem_map, Option.some.inj hslice]
  rw [List.flatMap_def, hmap, flatten_slices_chunkCount hs]

theorem length_blocks_of_mem_cut (hs : 0 < size) (h : chunk ∈ b.cut size) :
    1 ≤ chunk.blocks.length ∧ chunk.blocks.length ≤ size := by
  obtain ⟨i, hi⟩ := List.mem_iff_getElem?.mp h
  obtain ⟨hlt, -, -, hslice⟩ := getElem?_cut hi
  obtain ⟨hpos, hle, -⟩ := length_slice hs hlt hslice
  exact ⟨hpos, hle⟩

/-- A chunk with another one behind it is full. -/
theorem length_blocks_of_mem_dropLast (hs : 0 < size) (h : chunk ∈ (b.cut size).dropLast) :
    chunk.blocks.length = size := by
  obtain ⟨i, hi⟩ := List.mem_iff_getElem?.mp h
  rw [List.getElem?_dropLast] at hi
  split at hi
  · rename_i hlast
    rw [length_cut] at hlast
    obtain ⟨hlt, -, -, hslice⟩ := getElem?_cut hi
    obtain ⟨-, -, hfull⟩ := length_slice hs hlt hslice
    exact hfull (by omega)
  · cases hi

theorem cut_eq_nil_iff (hs : 0 < size) : b.cut size = [] ↔ b.blocks = [] := by
  have hpos := lt_chunkCount (i := 0) (n := b.blocks.length) hs
  rw [← List.length_eq_zero_iff, length_cut, ← List.length_eq_zero_iff]
  omega

end Cutting

/-! ### Payloads -/

theorem items_toJson (chunk : Chunk) :
    chunk.toJson.items "blocks" = chunk.blocks.map Block.toJson := rfl

theorem handedOver_cut (b : Blueprint) {size : Int} (hs : 1 ≤ size) :
    b.HandedOver size ((b.cut size.toNat).map Chunk.toJson) where
  blocks := by
    have hb : b.toJson.items "blocks" = b.blocks.map Block.toJson := rfl
    have hs : 0 < size.toNat := by omega
    rw [List.flatMap_map, hb, ← b.flatMap_blocks_cut hs, List.map_flatMap]
    rfl
  nonempty := by
    refine List.forall_mem_map.mpr fun chunk h => ?_
    rw [items_toJson, List.length_map]
    exact (length_blocks_of_mem_cut (by omega) h).1
  le_size := by
    refine List.forall_mem_map.mpr fun chunk h => ?_
    rw [items_toJson, List.length_map]
    have := (length_blocks_of_mem_cut (by omega) h).2
    omega
  full := by
    rw [← List.map_dropLast]
    refine List.forall_mem_map.mpr fun chunk h => ?_
    rw [items_toJson, List.length_map, length_blocks_of_mem_dropLast (by omega) h]
    omega
  indices := by
    rw [List.length_map, ← map_index_cut, List.map_map, List.map_map]
    rfl
  totals := by
    refine List.forall_mem_map.mpr fun chunk h => ?_
    obtain ⟨i, hi⟩ := List.mem_iff_getElem?.mp h
    obtain ⟨-, -, htotal, -⟩ := getElem?_cut hi
    rw [List.length_map, ← htotal]
    rfl
  eq_nil_iff := List.map_eq_nil_iff.trans (cut_eq_nil_iff (by omega))

/-- **The chunks of a blueprint are its blocks, cut into parts.** A size that is not positive is
refused before there is any payload. -/
theorem chunks_partition (b : Blueprint) (size : Int) :
    (1 ≤ size → ∃ payloads, b.payloads size = .ok payloads ∧ b.HandedOver size payloads) ∧
      (size < 1 → ∃ fault, b.payloads size = .error fault ∧ fault.kindName = "ValueError") := by
  refine ⟨fun hs => ⟨_, b.payloads_of_pos hs, b.handedOver_cut hs⟩, fun hs => ?_⟩
  refine ⟨.chunkSize, ?_, rfl⟩
  rw [payloads, chunks, if_pos hs]
  rfl

/-- Three blocks in a row. -/
def row : Blueprint where
  blocks := [⟨0, 0, 0, "minecraft:stone"⟩, ⟨1, 0, 0, "minecraft:glass"⟩,
    ⟨2, 0, 0, "minecraft:stone"⟩]

/-- Three blocks in chunks of two, and in chunks of none. -/
theorem chunks_partition_row :
    (∃ payloads, row.payloads 2 = .ok payloads ∧ row.HandedOver 2 payloads ∧
      payloads.length = 2) ∧
      ∃ fault, row.payloads 0 = .error fault ∧ fault.kindName = "ValueError" := by
  obtain ⟨payloads, hp, h⟩ := (chunks_partition row 2).1 (by decide)
  refine ⟨⟨payloads, hp, h, ?_⟩, (chunks_partition row 0).2 (by decide)⟩
  cases hp
  rfl

end Blueprint
end VoxelBlueprint
