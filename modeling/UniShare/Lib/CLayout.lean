import Mathlib

/-!
# Records in memory

How a C compiler for x86-64 lays a record out, and what stores and loads of its members do to its
bytes. `packed` counts when it stands on the record; on the name of a type it is ignored, and
`aligned` there does not change the size. A packed record whose members all fall on their natural
alignment has the natural layout (`offsets_packed`).
-/

namespace UniShare.Lib

/-! ## Types and declarations -/

/-- The C types of the members. -/
inductive CType where
  | char
  | int
  | uint64
  | array (element : CType) (count : Nat)
  deriving DecidableEq

/-- `sizeof` a type. -/
def CType.size : CType → Nat
  | char => 1
  | int => 4
  | uint64 => 8
  | array element count => element.size * count

/-- The natural alignment of a type. -/
def CType.align : CType → Nat
  | char => 1
  | int => 4
  | uint64 => 8
  | array element _ => element.align

/-- The attributes of a declaration; an alignment of 1 asks for nothing. -/
structure Attributes where
  isPacked : Bool := false
  aligned : Nat := 1
  deriving DecidableEq

/-- The declaration of a record, with the attributes that stand on it and those that stand on the
name of its type. -/
structure Declaration (ι : Type) where
  members : List (ι × CType)
  onRecord : Attributes := {}
  onName : Attributes := {}

/-- The next place with this alignment. -/
def roundUp (place align : Nat) : Nat := (place + align - 1) / align * align

/-- A member of a packed record may begin anywhere. -/
def memberAlign (attributes : Attributes) (type : CType) : Nat :=
  if attributes.isPacked then 1 else type.align

section Layout

variable {ι : Type}

/-- The places of the members, from a place on, and the end of the last one. -/
def offsetsFrom (attributes : Attributes) : Nat → List (ι × CType) → List (ι × Nat) × Nat
  | place, [] => ([], place)
  | place, (name, type) :: rest =>
      let start := roundUp place (memberAlign attributes type)
      let others := offsetsFrom attributes (start + type.size) rest
      ((name, start) :: others.1, others.2)

/-- The alignment of a record. -/
def recordAlign (attributes : Attributes) (members : List (ι × CType)) : Nat :=
  members.foldr (fun member align => max (memberAlign attributes member.2) align) attributes.aligned

namespace Declaration

/-- Where a member begins. -/
def offset [DecidableEq ι] (declaration : Declaration ι) (name : ι) : Nat :=
  ((offsetsFrom declaration.onRecord 0 declaration.members).1.lookup name).getD 0

/-- `sizeof` the record. What stands on the name of the type has no part in it. -/
def size (declaration : Declaration ι) : Nat :=
  roundUp (offsetsFrom declaration.onRecord 0 declaration.members).2
    (recordAlign declaration.onRecord declaration.members)

end Declaration

/-- Laid out one directly behind the other, the members fall on their natural alignment. -/
def FallsNaturally : Nat → List (ι × CType) → Prop
  | _, [] => True
  | place, (_, type) :: rest => type.align ∣ place ∧ FallsNaturally (place + type.size) rest

/-- A place that has the alignment is kept. -/
theorem round_up_of_dvd {place align : Nat} (h : align ∣ place) : roundUp place align = place := by
  obtain ⟨count, rfl⟩ := h
  rcases Nat.eq_zero_or_pos align with rfl | hpositive
  · simp [roundUp]
  · have hbelow : (align * count + align - 1) / align = count := by
      have hsplit : align * count + align - 1 = align - 1 + align * count := by omega
      rw [hsplit, Nat.add_mul_div_left _ _ hpositive, Nat.div_eq_of_lt (by omega), Nat.zero_add]
    rw [roundUp, hbelow, Nat.mul_comm]

/-- When the members fall on their natural alignment, whether the record is packed makes no
difference to their places. -/
theorem offsets_packed {members : List (ι × CType)} {place : Nat}
    (h : FallsNaturally place members) (packed natural : Attributes) :
    offsetsFrom packed place members = offsetsFrom natural place members := by
  induction members generalizing place with
  | nil => rfl
  | cons member rest ih =>
      obtain ⟨name, type⟩ := member
      obtain ⟨haligned, hrest⟩ := h
      have hkept : ∀ attributes, roundUp place (memberAlign attributes type) = place := by
        intro attributes
        unfold memberAlign
        split
        · exact round_up_of_dvd (one_dvd place)
        · exact round_up_of_dvd haligned
      simp only [offsetsFrom, hkept, ih hrest]

end Layout

/-! ## Bytes -/

/-- The bytes of an unsigned value, the lowest first. -/
def bytesOf : Nat → Nat → List UInt8
  | 0, _ => []
  | size + 1, value => UInt8.ofNat value :: bytesOf size (value / 256)

/-- The unsigned value of bytes, the lowest first. -/
def valueOf : List UInt8 → Nat
  | [] => 0
  | byte :: rest => byte.toNat + 256 * valueOf rest

@[simp] theorem length_bytes_of (size value : Nat) : (bytesOf size value).length = size := by
  induction size generalizing value with
  | zero => rfl
  | succ size ih => rw [bytesOf, List.length_cons, ih]

/-- The bytes of a value give it back, up to their number. -/
theorem value_of_bytes_of (size value : Nat) :
    valueOf (bytesOf size value) = value % 256 ^ size := by
  induction size generalizing value with
  | zero => simp [bytesOf, valueOf, Nat.mod_one]
  | succ size ih =>
      rw [bytesOf, valueOf, ih, pow_succ', Nat.mod_mul]
      rfl

/-- Write bytes over those at a place. -/
def store (memory : List UInt8) (place : Nat) (bytes : List UInt8) : List UInt8 :=
  memory.take place ++ bytes ++ memory.drop (place + bytes.length)

/-- Read bytes from a place on. -/
def load (memory : List UInt8) (place size : Nat) : List UInt8 := (memory.drop place).take size

/-- The text at a place: the bytes up to the first zero. -/
def loadText (memory : List UInt8) (place : Nat) : List UInt8 :=
  (memory.drop place).takeWhile fun byte => byte != 0

/-- `strcpy` of a text, with the zero behind it. -/
def strcpy (memory : List UInt8) (place : Nat) (text : List UInt8) : List UInt8 :=
  store memory place (loadText text 0 ++ [0])

section Memory

variable {memory bytes : List UInt8} {place : Nat}

/-- A store inside the memory keeps its size. -/
theorem length_store (h : place + bytes.length ≤ memory.length) :
    (store memory place bytes).length = memory.length := by
  simp only [store, List.length_append, List.length_take, List.length_drop]
  omega

/-- What has been stored is there. -/
theorem drop_store (h : place ≤ memory.length) :
    (store memory place bytes).drop place = bytes ++ memory.drop (place + bytes.length) := by
  have hlength : (memory.take place).length = place := List.length_take_of_le h
  rw [store, List.append_assoc]
  conv_lhs => rw [← hlength]
  rw [hlength, List.drop_append_of_le_length (by omega), List.drop_of_length_le (by omega),
    List.nil_append]

/-- What has been stored is loaded. -/
theorem load_store_same (bytes : List UInt8) (h : place ≤ memory.length) :
    load (store memory place bytes) place bytes.length = bytes := by
  rw [load, drop_store h]
  exact List.take_left

/-- A load from ahead of the stored bytes. -/
theorem load_store_ahead {other size : Nat} (hplace : place ≤ memory.length)
    (h : other + size ≤ place) :
    load (store memory place bytes) other size = load memory other size := by
  have hlength : (memory.take place).length = place := List.length_take_of_le hplace
  have hkept : (memory.take place).drop other = (memory.drop other).take (place - other) :=
    List.drop_take
  rw [load, load, store, List.append_assoc, List.drop_append_of_le_length (by omega),
    List.take_append_of_le_length (by rw [List.length_drop]; omega), hkept, List.take_take,
    Nat.min_eq_left (by omega)]

/-- A text that ends inside a loaded part. -/
theorem load_text_of_load {size : Nat} {text : List UInt8} (rest : List UInt8)
    (htext : (0 : UInt8) ∉ text) (h : load memory place size = text ++ 0 :: rest) :
    loadText memory place = text := by
  have hsplit : memory.drop place = text ++ 0 :: (rest ++ (memory.drop place).drop size) := by
    rw [← List.cons_append, ← List.append_assoc, ← h, load, List.take_append_drop]
  rw [loadText, hsplit, List.takeWhile_append_of_pos]
  · simp
  · intro byte hbyte
    simpa using fun heq : byte = 0 => htext (heq ▸ hbyte)

/-- A load does not see what follows the memory. -/
theorem load_append {size : Nat} (rest : List UInt8) (h : place + size ≤ memory.length) :
    load (memory ++ rest) place size = load memory place size := by
  rw [load, load, List.drop_append_of_le_length (by omega),
    List.take_append_of_le_length (by rw [List.length_drop]; omega)]

/-- A text has no zero. -/
theorem zero_not_mem_load_text (memory : List UInt8) (place : Nat) :
    (0 : UInt8) ∉ loadText memory place := by
  intro hmem
  simpa using List.mem_takeWhile_imp hmem

/-- A text is not longer than what it is read from. -/
theorem length_load_text_le (memory : List UInt8) (place : Nat) :
    (loadText memory place).length ≤ memory.length := by
  have hkept : (loadText memory place).length ≤ (memory.drop place).length :=
    (List.takeWhile_sublist _).length_le
  rw [List.length_drop] at hkept
  omega

/-- A copied text is read from memory that agrees with the copy where that lies. -/
theorem load_text_strcpy (memory : List UInt8) {after text : List UInt8}
    (hplace : place ≤ memory.length) (h : load after place ((loadText text 0).length + 1) =
      load (strcpy memory place text) place ((loadText text 0).length + 1)) :
    loadText after place = loadText text 0 := by
  refine load_text_of_load [] (zero_not_mem_load_text text 0) (h.trans ?_)
  have hcopied := load_store_same (loadText text 0 ++ [0]) hplace
  rwa [List.length_append, List.length_singleton] at hcopied

/-- A text without a zero is read whole. -/
theorem load_text_self {text : List UInt8} (h : (0 : UInt8) ∉ text) : loadText text 0 = text := by
  rw [loadText, List.drop_zero, List.takeWhile_eq_self_iff]
  intro byte hbyte
  simpa using fun heq : byte = 0 => h (heq ▸ hbyte)

end Memory

end UniShare.Lib
