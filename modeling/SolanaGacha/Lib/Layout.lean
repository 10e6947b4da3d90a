import Mathlib.Algebra.Order.Ring.Nat
import Mathlib.Data.List.Basic
import Mathlib.Data.Nat.Basic
import Mathlib.Tactic.Ring

/-!
# Fixed-size binary layouts

A layout stores a value in a fixed number of bytes. `decode` is the view that a pointer cast takes
of a buffer: it reads the first `size` bytes and nothing else, and on a buffer that is long enough
it is a bijection with them. The two laws of a layout say this, so that overlaying a structure on a
buffer, changing the structure and writing it back touches those bytes only.

The combinators build the layout of a packed little-endian structure from its fields in their order
(`pair`, `vector`, `iso`), and the laws come with the construction. `readAt` and `writeAt` access a
field at an offset of a larger buffer.
-/

/-- A packed encoding of `α` in exactly `size` bytes. -/
structure Layout (α : Type*) where
  /-- The number of bytes of every encoding. -/
  size : ℕ
  /-- The bytes of a value. -/
  encode : α → List UInt8
  /-- The value that a buffer starts with; arbitrary on a buffer that is too short. -/
  decode : List UInt8 → α
  /-- Every encoding has the size of the layout. -/
  encode_length : ∀ a, (encode a).length = size
  /-- Reading back a value, whatever follows it. -/
  decode_append : ∀ a rest, decode (encode a ++ rest) = a
  /-- A buffer that is long enough starts with the encoding of what is read from it. -/
  encode_decode : ∀ bytes : List UInt8, size ≤ bytes.length → encode (decode bytes) = bytes.take size

/-- A byte string of length `n`, such as a key or a hash. -/
abbrev FixedBytes (n : ℕ) := {bytes : List UInt8 // bytes.length = n}

instance FixedBytes.inhabited {n : ℕ} : Inhabited (FixedBytes n) :=
  ⟨⟨List.replicate n 0, List.length_replicate⟩⟩

@[simp]
theorem FixedBytes.length_val {n : ℕ} (b : FixedBytes n) : b.val.length = n := b.property

/-- Byte strings are found in a list by comparing them. -/
instance FixedBytes.decidableMem {n : ℕ} (b : FixedBytes n) (l : List (FixedBytes n)) : Decidable (b ∈ l) :=
  inferInstance

namespace Layout

variable {α β : Type*}

attribute [simp] encode_length

/-- Reading back a value that fills its buffer. -/
@[simp]
theorem decode_encode (l : Layout α) (a : α) : l.decode (l.encode a) = a := by
  simpa using l.decode_append a []

/-- The length and the value of a buffer that holds one encoding. -/
theorem decode_of_encode (l : Layout α) {a : α} {bytes : List UInt8} (h : bytes = l.encode a) :
    bytes.length = l.size ∧ l.decode bytes = a := by
  rw [h]
  exact ⟨l.encode_length a, l.decode_encode a⟩

/-- Two values with one encoding are equal. -/
theorem encode_injective (l : Layout α) {a b : α} (h : l.encode a = l.encode b) : a = b := by
  rw [← l.decode_encode a, h, l.decode_encode]

/-- A view of a buffer depends on its first `size` bytes only. -/
theorem decode_take (l : Layout α) (bytes : List UInt8) :
    l.decode (bytes.take l.size) = l.decode bytes := by
  by_cases h : l.size ≤ bytes.length
  · rw [← l.encode_decode bytes h, l.decode_encode]
  · rw [List.take_of_length_le (by omega)]

/-! ## Combinators -/

/-- One byte. -/
def u8 : Layout UInt8 where
  size := 1
  encode a := [a]
  decode bytes := bytes.headD 0
  encode_length _ := rfl
  decode_append _ _ := rfl
  encode_decode bytes h := by
    cases bytes with
    | nil => simp at h
    | cons b bytes => simp

/-- Two fields in order. -/
def pair (l : Layout α) (r : Layout β) : Layout (α × β) where
  size := l.size + r.size
  encode a := l.encode a.1 ++ r.encode a.2
  decode bytes := (l.decode bytes, r.decode (bytes.drop l.size))
  encode_length a := by simp
  decode_append a rest := by
    have hdrop : (l.encode a.1 ++ (r.encode a.2 ++ rest)).drop l.size = r.encode a.2 ++ rest :=
      List.drop_left' (l.encode_length a.1)
    rw [List.append_assoc, l.decode_append, hdrop, r.decode_append]
  encode_decode bytes h := by
    rw [l.encode_decode bytes (by omega),
      r.encode_decode (bytes.drop l.size) (by rw [List.length_drop]; omega), List.take_add]

/-- The same bytes read as another type. -/
def iso (l : Layout α) (pack : α → β) (unpack : β → α) (pack_unpack : ∀ b, pack (unpack b) = b)
    (unpack_pack : ∀ a, unpack (pack a) = a) : Layout β where
  size := l.size
  encode b := l.encode (unpack b)
  decode bytes := pack (l.decode bytes)
  encode_length b := l.encode_length _
  decode_append b rest := by rw [l.decode_append, pack_unpack]
  encode_decode bytes h := by rw [unpack_pack, l.encode_decode bytes h]

/-- A byte string of length `n`, stored as it is. -/
def bytes (n : ℕ) : Layout (FixedBytes n) where
  size := n
  encode a := a.val
  decode bytes := ⟨(bytes ++ List.replicate n 0).take n, by simp⟩
  encode_length a := a.property
  decode_append a rest := by
    apply Subtype.ext
    simp only [List.append_assoc]
    exact List.take_left' a.property
  encode_decode bytes h := List.take_append_of_le_length h

/-- The values of a list one after the other, each read at its own offset. -/
theorem decode_flatMap (l : Layout α) (as : List α) (rest : List UInt8) (i : ℕ) (h : i < as.length) :
    l.decode ((as.flatMap l.encode ++ rest).drop (i * l.size)) = as[i] := by
  induction as generalizing i with
  | nil => simp at h
  | cons a as ih =>
    rw [List.flatMap_cons, List.append_assoc]
    cases i with
    | zero => simp [l.decode_append]
    | succ i =>
      rw [show (i + 1) * l.size = l.size + i * l.size by ring, ← List.drop_drop,
        List.drop_left' (l.encode_length a), List.getElem_cons_succ]
      exact ih i (by simpa using h)

/-- Cutting a buffer into `n` encodings and joining them gives the buffer's start. -/
theorem flatMap_encode_decode (l : Layout α) (n : ℕ) (bytes : List UInt8)
    (h : n * l.size ≤ bytes.length) :
    (List.range n).flatMap (fun i => l.encode (l.decode (bytes.drop (i * l.size)))) =
      bytes.take (n * l.size) := by
  induction n with
  | zero => simp
  | succ n ih =>
    have hn : n * l.size + l.size ≤ bytes.length := by rw [← Nat.succ_mul]; exact h
    rw [List.range_succ, List.flatMap_append, ih (by omega), List.flatMap_singleton,
      l.encode_decode _ (by rw [List.length_drop]; omega), ← List.take_add, ← Nat.succ_mul]

/-- `n` values of one type in order. -/
def vector (l : Layout α) (n : ℕ) : Layout (Vector α n) where
  size := n * l.size
  encode v := v.toList.flatMap l.encode
  decode bytes :=
    ⟨((List.range n).map fun i => l.decode (bytes.drop (i * l.size))).toArray, by simp⟩
  encode_length v := by simp [List.length_flatMap]
  decode_append v rest := by
    apply Vector.ext
    intro i hi
    have h := l.decode_flatMap v.toList rest i (by simpa using hi)
    rw [Vector.getElem_toList] at h
    simpa using h
  encode_decode bytes h := by
    simpa [Vector.toList, List.flatMap_map] using l.flatMap_encode_decode n bytes h

/-! ## Little-endian words -/

/-- The `n` low base-256 digits of `v`, least significant first. -/
def leBytes : ℕ → ℕ → List UInt8
  | 0, _ => []
  | n + 1, v => UInt8.ofNat v :: leBytes n (v / 256)

/-- The number with the given base-256 digits, least significant first. -/
def leNat : List UInt8 → ℕ
  | [] => 0
  | b :: bytes => b.toNat + 256 * leNat bytes

@[simp]
theorem leBytes_length (n v : ℕ) : (leBytes n v).length = n := by
  induction n generalizing v with
  | zero => rfl
  | succ n ih => simp [leBytes, ih]

theorem leNat_lt (bytes : List UInt8) : leNat bytes < 256 ^ bytes.length := by
  induction bytes with
  | nil => simp [leNat]
  | cons b bytes ih =>
    have hb := b.toNat_lt
    simp only [leNat, List.length_cons, pow_succ]
    omega

theorem leNat_leBytes (n v : ℕ) (h : v < 256 ^ n) : leNat (leBytes n v) = v := by
  induction n generalizing v with
  | zero =>
    have hv : v = 0 := by simpa using h
    simp [leBytes, leNat, hv]
  | succ n ih =>
    rw [leBytes, leNat, ih (v / 256) (by rw [pow_succ] at h; omega), UInt8.toNat_ofNat']
    omega

theorem leBytes_leNat (bytes : List UInt8) : leBytes bytes.length (leNat bytes) = bytes := by
  induction bytes with
  | nil => rfl
  | cons b bytes ih =>
    have hb := b.toNat_lt
    have hdiv : (b.toNat + 256 * leNat bytes) / 256 = leNat bytes := by omega
    have hlow : UInt8.ofNat (b.toNat + 256 * leNat bytes) = b := by
      apply UInt8.toNat.inj
      rw [UInt8.toNat_ofNat']
      omega
    rw [List.length_cons, leNat, leBytes, hdiv, ih, hlow]

/-- A number of `n` little-endian digits, as the numbers below `256 ^ n`. -/
def digits (n : ℕ) : Layout (Fin (256 ^ n)) where
  size := n
  encode a := leBytes n a.val
  decode bytes := ⟨leNat (((Layout.bytes n).decode bytes).val), by
    have h := leNat_lt ((Layout.bytes n).decode bytes).val
    rwa [((Layout.bytes n).decode bytes).property] at h⟩
  encode_length a := leBytes_length n a.val
  decode_append a rest := by
    apply Fin.ext
    have h := (Layout.bytes n).decode_append ⟨leBytes n a.val, leBytes_length n a.val⟩ rest
    exact (congrArg (fun b => leNat b.val) h).trans (leNat_leBytes n a.val a.isLt)
  encode_decode bytes h := by
    have hread : ((Layout.bytes n).decode bytes).val = bytes.take n :=
      (Layout.bytes n).encode_decode bytes h
    have hlen := ((Layout.bytes n).decode bytes).property
    rw [hread] at hlen
    show leBytes n (leNat ((Layout.bytes n).decode bytes).val) = bytes.take n
    rw [hread]
    calc leBytes n (leNat (bytes.take n))
        = leBytes (bytes.take n).length (leNat (bytes.take n)) := by rw [hlen]
      _ = bytes.take n := leBytes_leNat _

/-- A `u32` in little-endian order. -/
def u32 : Layout UInt32 :=
  (digits 4).iso (fun a => UInt32.ofNat a.val) (fun b => ⟨b.toNat, b.toNat_lt⟩)
    (fun b => by simp) (fun a => Fin.ext (Nat.mod_eq_of_lt a.isLt))

/-- A `u64` in little-endian order. -/
def u64 : Layout UInt64 :=
  (digits 8).iso (fun a => UInt64.ofNat a.val) (fun b => ⟨b.toNat, b.toNat_lt⟩)
    (fun b => by simp) (fun a => Fin.ext (Nat.mod_eq_of_lt a.isLt))

@[simp] theorem u8_size : u8.size = 1 := rfl
@[simp] theorem u32_size : u32.size = 4 := rfl
@[simp] theorem u64_size : u64.size = 8 := rfl
@[simp] theorem bytes_size (n : ℕ) : (bytes n).size = n := rfl

/-! ## Fields of a larger buffer -/

/-- The value stored at `offset`. -/
def readAt (l : Layout α) (offset : ℕ) (buffer : List UInt8) : α := l.decode (buffer.drop offset)

/-- The buffer with the value at `offset` replaced. -/
def writeAt (l : Layout α) (offset : ℕ) (a : α) (buffer : List UInt8) : List UInt8 :=
  buffer.take offset ++ l.encode a ++ buffer.drop (offset + l.size)

/-- An entry of a vector is a field of its own. -/
theorem getElem_readAt_vector (l : Layout α) {n i : ℕ} (offset : ℕ) (buffer : List UInt8) (h : i < n) :
    ((l.vector n).readAt offset buffer)[i] = l.readAt (offset + i * l.size) buffer := by
  simp [readAt, vector]

variable (l : Layout α) (r : Layout β) {offset other : ℕ} (a : α) (b : β) (buffer : List UInt8)

theorem writeAt_length (h : offset + l.size ≤ buffer.length) :
    (l.writeAt offset a buffer).length = buffer.length := by
  simp only [writeAt, List.length_append, List.length_take, List.length_drop, encode_length]
  omega

/-- Overwriting the value that a buffer starts with. -/
theorem writeAt_zero_append (a b : α) (rest : List UInt8) :
    l.writeAt 0 a (l.encode b ++ rest) = l.encode a ++ rest := by
  rw [writeAt, List.take_zero, List.nil_append, Nat.zero_add, List.drop_left' (l.encode_length b)]

/-- A value that fills its buffer replaces all bytes. -/
theorem writeAt_zero_of_length (h : buffer.length = l.size) : l.writeAt 0 a buffer = l.encode a := by
  rw [writeAt, List.take_zero, List.nil_append, Nat.zero_add, List.drop_of_length_le (by omega),
    List.append_nil]

/-- A written value is read back. -/
theorem readAt_writeAt (h : offset + l.size ≤ buffer.length) :
    l.readAt offset (l.writeAt offset a buffer) = a := by
  unfold readAt writeAt
  rw [List.append_assoc, List.drop_left' (by rw [List.length_take]; omega), l.decode_append]

/-- Bytes outside the written field are unchanged. -/
theorem getElem?_writeAt (h : offset + l.size ≤ buffer.length) (i : ℕ)
    (hi : i < offset ∨ offset + l.size ≤ i) : (l.writeAt offset a buffer)[i]? = buffer[i]? := by
  unfold writeAt
  have htake : (buffer.take offset).length = offset := by rw [List.length_take]; omega
  rcases hi with hi | hi
  · rw [List.append_assoc, List.getElem?_append_left (by omega), List.getElem?_take_of_lt hi]
  · rw [List.getElem?_append_right (by rw [List.length_append, htake, encode_length]; omega),
      List.length_append, htake, encode_length, List.getElem?_drop]
    congr 1
    omega

/-- Two buffers with the same bytes in a field have the same value there. -/
theorem readAt_congr {buffer buffer' : List UInt8}
    (h : ∀ i, offset ≤ i → i < offset + l.size → buffer[i]? = buffer'[i]?) :
    l.readAt offset buffer = l.readAt offset buffer' := by
  unfold readAt
  rw [← l.decode_take (buffer.drop offset), ← l.decode_take (buffer'.drop offset)]
  congr 1
  apply List.ext_getElem?
  intro i
  by_cases hi : i < l.size
  · rw [List.getElem?_take_of_lt hi, List.getElem?_take_of_lt hi, List.getElem?_drop,
      List.getElem?_drop, h (offset + i) (by omega) (by omega)]
  · simp [hi]

/-- Two buffers with the same value in a field have the same bytes there. -/
theorem getElem?_eq_of_readAt {buffer buffer' : List UInt8} (h : offset + l.size ≤ buffer.length)
    (h' : offset + l.size ≤ buffer'.length) (heq : l.readAt offset buffer = l.readAt offset buffer') {i : ℕ}
    (hi : offset ≤ i) (hlt : i < offset + l.size) : buffer[i]? = buffer'[i]? := by
  have hbytes : (buffer.drop offset).take l.size = (buffer'.drop offset).take l.size := by
    rw [← l.encode_decode _ (by rw [List.length_drop]; omega),
      ← l.encode_decode _ (by rw [List.length_drop]; omega)]
    exact congrArg l.encode heq
  have hbyte := congrArg (·[i - offset]?) hbytes
  simp only [List.getElem?_take_of_lt (show i - offset < l.size by omega), List.getElem?_drop,
    Nat.add_sub_cancel' hi] at hbyte
  exact hbyte

/-- A write to one field leaves a field beside it unchanged. -/
theorem readAt_writeAt_of_disjoint (h : offset + l.size ≤ buffer.length)
    (hd : other + r.size ≤ offset ∨ offset + l.size ≤ other) :
    r.readAt other (l.writeAt offset a buffer) = r.readAt other buffer :=
  r.readAt_congr fun i h1 h2 => l.getElem?_writeAt a buffer h i (by omega)

/-- Writing one byte leaves a field that does not hold it unchanged. -/
theorem readAt_set_of_disjoint {i : ℕ} (v : UInt8) (hd : i < offset ∨ offset + l.size ≤ i) :
    l.readAt offset (buffer.set i v) = l.readAt offset buffer :=
  l.readAt_congr fun j h1 h2 => List.getElem?_set_ne (by omega)

/-- Bytes appended behind a field leave it unchanged. -/
theorem readAt_append (rest : List UInt8) (h : offset + l.size ≤ buffer.length) :
    l.readAt offset (buffer ++ rest) = l.readAt offset buffer :=
  l.readAt_congr fun _ _ h2 => List.getElem?_append_left (by omega)

end Layout
