import Mathlib.Algebra.Order.Ring.Nat
import Mixdown.Bytes

/-!
Readers take back what writers wrote, and each takes a fixed number of bytes. What they find is written
as the bytes that they took.
-/

namespace Mixdown

/-- Bits put above a number that leaves room for them are added to it. -/
theorem or_shiftLeft_eq_add (bits : Nat) {low high : Nat} (room : low < 2 ^ bits) :
    low ||| high <<< bits = low + high * 2 ^ bits := by
  -- The two share no bit, so that no bit of the sum is carried.
  rw [Nat.or_comm, ← Nat.shiftLeft_add_eq_or_of_lt room, Nat.shiftLeft_eq, Nat.add_comm]

/-- A part of a number still fits its word after it is shifted back to its place. -/
theorem shiftLeft_fits (number : Nat) {bits lead width : Nat} (room : lead + bits ≤ width) :
    (number >>> bits % 2 ^ lead) <<< bits % 2 ^ width = (number >>> bits % 2 ^ lead) <<< bits := by
  -- The part has as many bits as lie between its place and the end of the word.
  refine Nat.mod_eq_of_lt ?_
  have part : number >>> bits % 2 ^ lead < 2 ^ lead := Nat.mod_lt _ (Nat.two_pow_pos lead)
  rw [Nat.shiftLeft_eq]
  calc number >>> bits % 2 ^ lead * 2 ^ bits < 2 ^ lead * 2 ^ bits :=
        Nat.mul_lt_mul_of_pos_right part (Nat.two_pow_pos bits)
    _ = 2 ^ (lead + bits) := (Nat.pow_add 2 lead bits).symm
    _ ≤ 2 ^ width := Nat.pow_le_pow_right (by decide) room

/-- The two bytes of a number make up the number. -/
theorem joinBytes16 (value : UInt16) :
    value.toUInt8.toUInt16 ||| (value >>> 8).toUInt8.toUInt16 <<< 8 = value := by
  have bound := value.toNat_lt
  apply UInt16.toNat_inj.mp
  simp only [UInt16.toNat_or, UInt16.toNat_shiftLeft, UInt8.toNat_toUInt16, UInt16.toNat_toUInt8,
    UInt16.toNat_shiftRight, UInt16.reduceToNat, Nat.reduceMod]
  generalize value.toNat = number at bound
  -- Nothing of the upper byte is cut off, and it lies above all bits of the lower one.
  have fits := shiftLeft_fits number (show 8 + 8 ≤ 16 by decide)
  rw [fits, or_shiftLeft_eq_add 8 (by omega)]
  simp only [Nat.shiftRight_eq_div_pow]
  omega

/-- A number of two bytes is taken apart into the bytes that it was made of. -/
theorem Bytes.ofUInt16_pair (low high : UInt8) :
    ofUInt16 (low.toUInt16 ||| high.toUInt16 <<< 8) = [low, high] := by
  have lower := low.toNat_lt
  have upper := high.toNat_lt
  -- As a sum the number yields its bytes by division.
  have whole : (low.toUInt16 ||| high.toUInt16 <<< 8).toNat = low.toNat + high.toNat * 2 ^ 8 := by
    have fits : high.toNat <<< 8 % 2 ^ 16 = high.toNat <<< 8 := by
      rw [Nat.shiftLeft_eq]
      omega
    simp only [UInt16.toNat_or, UInt16.toNat_shiftLeft, UInt8.toNat_toUInt16, UInt16.reduceToNat,
      Nat.reduceMod]
    rw [fits, or_shiftLeft_eq_add 8 (by omega)]
  simp only [ofUInt16, List.cons.injEq, ← UInt8.toNat_inj, UInt16.toNat_toUInt8,
    UInt16.toNat_shiftRight, UInt16.reduceToNat, Nat.reduceMod, whole, Nat.shiftRight_eq_div_pow,
    and_true]
  omega

/-- The four bytes of a number make up the number. -/
theorem joinBytes32 (value : UInt32) :
    value.toUInt8.toUInt32 ||| (value >>> 8).toUInt8.toUInt32 <<< 8 |||
      (value >>> 16).toUInt8.toUInt32 <<< 16 ||| (value >>> 24).toUInt8.toUInt32 <<< 24 =
        value := by
  have bound := value.toNat_lt
  apply UInt32.toNat_inj.mp
  simp only [UInt32.toNat_or, UInt32.toNat_shiftLeft, UInt8.toNat_toUInt32, UInt32.toNat_toUInt8,
    UInt32.toNat_shiftRight, UInt32.reduceToNat, Nat.reduceMod]
  generalize value.toNat = number at bound
  -- Nothing of a byte is cut off, and each lies above all bits of those before it.
  have fits8 := shiftLeft_fits number (show 8 + 8 ≤ 32 by decide)
  have fits16 := shiftLeft_fits number (show 8 + 16 ≤ 32 by decide)
  have fits24 := shiftLeft_fits number (show 8 + 24 ≤ 32 by decide)
  rw [fits8, fits16, fits24, or_shiftLeft_eq_add 8 (by omega), or_shiftLeft_eq_add 16 (by omega),
    or_shiftLeft_eq_add 24 (by omega)]
  simp only [Nat.shiftRight_eq_div_pow]
  omega

/-- A number is taken apart into the four bytes that it was made of. -/
theorem Bytes.ofUInt32_fourCharacters (a b c d : UInt8) :
    ofUInt32 (fourCharacters a b c d) = [a, b, c, d] := by
  have whole : (fourCharacters a b c d).toNat =
      a.toNat + b.toNat * 2 ^ 8 + c.toNat * 2 ^ 16 + d.toNat * 2 ^ 24 := by
    have := a.toNat_lt
    have := b.toNat_lt
    have := c.toNat_lt
    have := d.toNat_lt
    -- Each byte lies above all bits of those before it, so that nothing is carried.
    have shifted (byte : UInt8) {bits : Nat} (small : bits ≤ 24) :
        byte.toNat <<< bits % 2 ^ 32 = byte.toNat <<< bits := by
      refine Nat.mod_eq_of_lt ?_
      rw [Nat.shiftLeft_eq]
      calc byte.toNat * 2 ^ bits < 2 ^ 8 * 2 ^ bits :=
            Nat.mul_lt_mul_of_pos_right byte.toNat_lt (Nat.two_pow_pos bits)
        _ = 2 ^ (8 + bits) := (Nat.pow_add 2 8 bits).symm
        _ ≤ 2 ^ 32 := Nat.pow_le_pow_right (by decide) (by omega)
    simp only [fourCharacters, UInt32.toNat_or, UInt32.toNat_shiftLeft, UInt8.toNat_toUInt32,
      UInt32.reduceToNat, Nat.reduceMod]
    rw [shifted b (by decide), shifted c (by decide), shifted d (by decide),
      or_shiftLeft_eq_add 8 (by omega), or_shiftLeft_eq_add 16 (by omega),
      or_shiftLeft_eq_add 24 (by omega)]
  have := a.toNat_lt
  have := b.toNat_lt
  have := c.toNat_lt
  have := d.toNat_lt
  simp only [ofUInt32, List.cons.injEq, ← UInt8.toNat_inj, UInt32.toNat_toUInt8,
    UInt32.toNat_shiftRight, UInt32.reduceToNat, Nat.reduceMod, whole, Nat.shiftRight_eq_div_pow,
    and_true]
  omega

/-- The two halves of a number make up the number. -/
theorem joinHalves64 (value : UInt64) :
    value.toUInt32.toUInt64 ||| (value >>> 32).toUInt32.toUInt64 <<< 32 = value := by
  have bound := value.toNat_lt
  apply UInt64.toNat_inj.mp
  simp only [UInt64.toNat_or, UInt64.toNat_shiftLeft, UInt32.toNat_toUInt64, UInt64.toNat_toUInt32,
    UInt64.toNat_shiftRight, UInt64.reduceToNat, Nat.reduceMod]
  generalize value.toNat = number at bound
  -- The upper half comes back to its place whole, above all bits of the lower one.
  have fits := shiftLeft_fits number (show 32 + 32 ≤ 64 by decide)
  rw [fits, or_shiftLeft_eq_add 32 (by omega)]
  simp only [Nat.shiftRight_eq_div_pow]
  omega

/-- A number of eight bytes is taken apart into the halves that it was made of. -/
theorem Bytes.ofUInt64_halves (low high : UInt32) :
    ofUInt64 (low.toUInt64 ||| high.toUInt64 <<< 32) = ofUInt32 low ++ ofUInt32 high := by
  have lower := low.toNat_lt
  have upper := high.toNat_lt
  have whole : (low.toUInt64 ||| high.toUInt64 <<< 32).toNat = low.toNat + high.toNat * 2 ^ 32 := by
    have fits : high.toNat <<< 32 % 2 ^ 64 = high.toNat <<< 32 := by
      rw [Nat.shiftLeft_eq]
      omega
    simp only [UInt64.toNat_or, UInt64.toNat_shiftLeft, UInt32.toNat_toUInt64, UInt64.reduceToNat,
      Nat.reduceMod]
    rw [fits, or_shiftLeft_eq_add 32 (by omega)]
  generalize low.toUInt64 ||| high.toUInt64 <<< 32 = value at whole
  -- Neither half reaches into the other one.
  have front : value.toUInt32 = low := by
    rw [← UInt32.toNat_inj, UInt64.toNat_toUInt32, whole]
    omega
  have back : (value >>> 32).toUInt32 = high := by
    simp only [← UInt32.toNat_inj, UInt64.toNat_toUInt32, UInt64.toNat_shiftRight, whole,
      UInt64.reduceToNat, Nat.reduceMod, Nat.shiftRight_eq_div_pow]
    omega
  rw [ofUInt64, front, back]

/-- What fits a length is brought to it. -/
theorem Bytes.length_padTo {bytes : Bytes} {length : Nat} (fits : bytes.length ≤ length) :
    (bytes.padTo length).length = length := by
  simp only [padTo, zeros, List.length_append, List.length_replicate]
  omega

namespace Reader

/-- Reading goes on behind what was read before. -/
@[simp] theorem bind_apply (reader : Reader α) (next : α → Reader β) (bytes : Bytes) :
    (reader >>= next) bytes = (reader bytes).bind fun found => next found.1 found.2 := rfl

/-- A value alone takes no bytes. -/
@[simp] theorem pure_apply (value : α) (bytes : Bytes) :
    (pure value : Reader α) bytes = some (value, bytes) := rfl

/-- What was read may be changed. -/
@[simp] theorem map_apply (change : α → β) (reader : Reader α) (bytes : Bytes) :
    (change <$> reader) bytes = (reader bytes).map fun found => (change found.1, found.2) := by
  change (reader bytes).bind _ = _
  cases reader bytes <;> rfl

/-- The value at the front of a string is what is read first. -/
theorem front?_eq_some {reader : Reader α} {bytes : Bytes} {value : α} :
    reader.front? bytes = some value ↔ ∃ rest, reader bytes = some (value, rest) := by
  simp [front?]

/-- A byte is read as it is. -/
@[simp] theorem uint8_cons (byte : UInt8) (rest : Bytes) :
    uint8 (byte :: rest) = some (byte, rest) := rfl

/-- A signed byte is read back. -/
@[simp] theorem int8_ofInt8 (value : Int8) (rest : Bytes) :
    int8 (Bytes.ofInt8 value ++ rest) = some (value, rest) := rfl

/-- A number of two bytes is read back. -/
@[simp] theorem uint16_ofUInt16 (value : UInt16) (rest : Bytes) :
    uint16 (Bytes.ofUInt16 value ++ rest) = some (value, rest) := by
  simp only [uint16, Bytes.ofUInt16, List.cons_append, List.nil_append, bind_apply, pure_apply,
    uint8_cons, Option.bind_some, joinBytes16]

/-- A signed number of two bytes is read back. -/
@[simp] theorem int16_ofInt16 (value : Int16) (rest : Bytes) :
    int16 (Bytes.ofInt16 value ++ rest) = some (value, rest) := by
  simp [int16, Bytes.ofInt16]

/-- A number of four bytes is read back. -/
@[simp] theorem uint32_ofUInt32 (value : UInt32) (rest : Bytes) :
    uint32 (Bytes.ofUInt32 value ++ rest) = some (value, rest) := by
  simp only [uint32, Bytes.ofUInt32, List.cons_append, List.nil_append, bind_apply, pure_apply,
    uint8_cons, Option.bind_some, joinBytes32]

/-- A number is read just where its bytes stand. -/
theorem uint32_eq_some {bytes rest : Bytes} {value : UInt32} :
    uint32 bytes = some (value, rest) ↔ bytes = .ofUInt32 value ++ rest := by
  constructor
  · intro read
    -- Fewer than four bytes are not read, so there are four.
    match bytes, read with
    | a :: b :: c :: d :: left, read =>
      obtain ⟨rfl, rfl⟩ := Prod.mk.inj (Option.some.inj
        (show some (fourCharacters a b c d, left) = some (value, rest) from read))
      rw [Bytes.ofUInt32_fourCharacters]
      rfl
  · rintro rfl
    exact uint32_ofUInt32 value rest

/-- A signed number of four bytes is read back. -/
@[simp] theorem int32_ofInt32 (value : Int32) (rest : Bytes) :
    int32 (Bytes.ofInt32 value ++ rest) = some (value, rest) := by
  simp [int32, Bytes.ofInt32]

/-- A floating-point pattern is read back. -/
@[simp] theorem single_ofSingle (value : Single) (rest : Bytes) :
    single (Bytes.ofSingle value ++ rest) = some (value, rest) := by
  simp [single, Bytes.ofSingle]

/-- A number of eight bytes is read back. -/
@[simp] theorem uint64_ofUInt64 (value : UInt64) (rest : Bytes) :
    uint64 (Bytes.ofUInt64 value ++ rest) = some (value, rest) := by
  simp only [uint64, Bytes.ofUInt64, List.append_assoc, bind_apply, pure_apply, uint32_ofUInt32,
    Option.bind_some, joinHalves64]

/-- Single bytes are read as they are. -/
theorem uint8_singleton (byte : UInt8) (rest : Bytes) :
    uint8 ([byte] ++ rest) = some (byte, rest) := rfl

/-- A run of bytes is read back when it has the length asked for. -/
theorem bytes_append {length : Nat} {front : Bytes} (full : front.length = length) (rest : Bytes) :
    Reader.bytes length (front ++ rest) = some (front, rest) := by
  subst full
  simp [Reader.bytes]

/-- Items are read back in order when each one is. -/
theorem vector_ofVector {item : Reader α} {write : α → Bytes}
    (one : ∀ value rest, item (write value ++ rest) = some (value, rest)) {n : Nat}
    (items : Vector α n) (rest : Bytes) :
    vector item n (Bytes.ofVector write items ++ rest) = some (items, rest) := by
  -- The reader takes the last item after all others, so the induction splits it off at the back.
  induction n generalizing rest with
  | zero =>
    obtain rfl : items = #v[] := by simp
    rfl
  | succ n ih =>
    obtain ⟨front, last, rfl⟩ : ∃ front last, items = front.push last :=
      ⟨items.pop, items.back, by simp⟩
    have written : Bytes.ofVector write (front.push last) =
        Bytes.ofVector write front ++ write last := by
      simp [Bytes.ofVector, Vector.toList_push]
    rw [written, List.append_assoc]
    simp [vector, ih, one]

/-- A reader finds a value at the front of any string that begins with the given bytes. -/
def Reads (reader : Reader α) (front : Bytes) (value : α) : Prop :=
  ∀ rest, reader (front ++ rest) = some (value, rest)

namespace Reads

variable {reader : Reader α} {front back : Bytes} {value : α}

/-- Two values are read one behind the other. -/
theorem bind (first : Reads reader front value) {next : α → Reader β} {other : β}
    (second : Reads (next value) back other) : Reads (reader >>= next) (front ++ back) other := by
  intro rest
  rw [bind_apply, List.append_assoc, first]
  exact second rest

/-- The last value that is read completes what is made of all. -/
theorem last (first : Reads reader front value) (make : α → β) :
    Reads (reader >>= fun found => pure (make found)) front (make value) := by
  intro rest
  rw [bind_apply, first]
  rfl

/-- A value is read in spite of zeros behind it. -/
theorem front?_padTo (read : Reads reader front value) (length : Nat) :
    reader.front? (Bytes.padTo length front) = some value := by
  simp [front?, Bytes.padTo, read _]

end Reads

/-- A reader takes a fixed number of bytes, finds its value in them alone and refuses a shorter
string only. -/
def Takes (reader : Reader α) (width : Nat) : Prop :=
  ∀ bytes : Bytes, (bytes.length < width → reader bytes = none) ∧
    (width ≤ bytes.length → ∃ value, Reads reader (bytes.take width) value)

namespace Takes

variable {reader : Reader α} {width : Nat}

/-- A string that is long enough is read up to the width. -/
theorem found (takes : Takes reader width) {bytes : Bytes} (long : width ≤ bytes.length) :
    ∃ value, reader bytes = some (value, bytes.drop width) := by
  obtain ⟨value, read⟩ := (takes bytes).2 long
  have whole := read (bytes.drop width)
  rw [List.take_append_drop] at whole
  exact ⟨value, whole⟩

/-- What is left after reading is the rest of the string. -/
theorem rest (takes : Takes reader width) {bytes rest : Bytes} {value : α}
    (found : reader bytes = some (value, rest)) : width ≤ bytes.length ∧ rest = bytes.drop width := by
  -- A string that was read is long enough, and then the rest is known.
  rcases Nat.lt_or_ge bytes.length width with short | long
  · simp [(takes bytes).1 short] at found
  · obtain ⟨other, read⟩ := takes.found long
    rw [read] at found
    cases found
    exact ⟨long, rfl⟩

/-- What is read back is as long as what is taken. -/
theorem length_eq (takes : Takes reader width) {bytes : Bytes} {value : α}
    (read : Reads reader bytes value) : bytes.length = width := by
  -- When nothing stands behind the string, nothing is left, so all of it lies within the width.
  have alone : reader bytes = some (value, []) := by simpa using read []
  obtain ⟨long, rest⟩ := takes.rest alone
  have short : bytes.length ≤ width := List.drop_eq_nil_iff.mp rest.symm
  omega

/-- The value at the front of a string depends on as many bytes as are taken. -/
theorem front?_take (takes : Takes reader width) (bytes : Bytes) :
    reader.front? (bytes.take width) = reader.front? bytes := by
  -- A string that is too short is taken whole, and the rest of a longer one is not looked at.
  rcases Nat.lt_or_ge bytes.length width with short | long
  · rw [List.take_of_length_le (Nat.le_of_lt short)]
  · obtain ⟨value, read⟩ := (takes bytes).2 long
    have whole := read (bytes.drop width)
    have alone := read []
    rw [List.take_append_drop] at whole
    rw [List.append_nil] at alone
    simp [front?, whole, alone]

/-- A value alone takes nothing. -/
theorem pure (value : α) : Takes (pure value : Reader α) 0 :=
  fun _ => ⟨fun short => absurd short (Nat.not_lt_zero _), fun _ => ⟨value, fun _ => rfl⟩⟩

/-- Two readers one behind the other take both of their widths. -/
theorem bind (takes : Takes reader width) {next : α → Reader β} {more : Nat}
    (takesMore : ∀ value, Takes (next value) more) : Takes (reader >>= next) (width + more) := by
  intro bytes
  have left : (bytes.drop width).length = bytes.length - width := by simp
  -- The second reader starts where the first one stops.
  constructor
  · intro short
    rw [bind_apply]
    rcases Nat.lt_or_ge bytes.length width with few | long
    · -- A string too short for the first reader is too short for both.
      simp [(takes bytes).1 few]
    · -- The second reader refuses a rest that is too short for it.
      obtain ⟨value, read⟩ := takes.found long
      simp only [read, Option.bind_some]
      exact (takesMore value _).1 (by omega)
  · -- Both widths are taken from the string one after the other.
    intro enough
    obtain ⟨value, read⟩ := (takes bytes).2 (by omega)
    obtain ⟨other, readMore⟩ := (takesMore value (bytes.drop width)).2 (by omega)
    rw [List.take_add]
    exact ⟨other, read.bind readMore⟩

/-- Changing the value does not change what is taken. -/
theorem map (takes : Takes reader width) (change : α → β) : Takes (change <$> reader) width := by
  intro bytes
  -- A change is made only to what was found.
  constructor
  · intro short
    simp [(takes bytes).1 short]
  · intro long
    obtain ⟨value, read⟩ := (takes bytes).2 long
    exact ⟨change value, fun rest => by simp [read rest]⟩

end Takes

/-- One byte takes one byte. -/
theorem takes_uint8 : Takes uint8 1 := by
  rintro (_ | ⟨byte, rest⟩)
  · exact ⟨fun _ => rfl, fun long => by simp at long⟩
  · exact ⟨fun short => by simp at short, fun _ => ⟨byte, fun _ => rfl⟩⟩

/-- A signed byte takes one byte. -/
theorem takes_int8 : Takes int8 1 := takes_uint8.map _

/-- A number of two bytes takes two. -/
theorem takes_uint16 : Takes uint16 2 :=
  takes_uint8.bind fun _ => takes_uint8.bind fun _ => .pure _

/-- A signed number of two bytes takes two. -/
theorem takes_int16 : Takes int16 2 := takes_uint16.map _

/-- A number of four bytes takes four. -/
theorem takes_uint32 : Takes uint32 4 :=
  takes_uint8.bind fun _ => takes_uint8.bind fun _ => takes_uint8.bind fun _ =>
    takes_uint8.bind fun _ => .pure _

/-- A signed number of four bytes takes four. -/
theorem takes_int32 : Takes int32 4 := takes_uint32.map _

/-- A number of eight bytes takes eight. -/
theorem takes_uint64 : Takes uint64 8 :=
  takes_uint32.bind fun _ => takes_uint32.bind fun _ => .pure _

/-- A floating-point pattern takes four bytes. -/
theorem takes_single : Takes single 4 := takes_uint32.map _

/-- A run of bytes takes its length. -/
theorem takes_bytes (length : Nat) : Takes (Reader.bytes length) length := by
  intro bytes
  -- A string that is too short yields fewer bytes than asked for.
  constructor
  · intro short
    have different : min length bytes.length ≠ length := by omega
    simp [Reader.bytes, different]
  · intro long
    exact ⟨bytes.take length, bytes_append (List.length_take_of_le long)⟩

/-- Items one behind the other take as many bytes as all of them. -/
theorem Takes.vector {item : Reader α} {width : Nat} (takes : Takes item width) (n : Nat) :
    Takes (Reader.vector item n) (n * width) := by
  -- Reading one item more takes its width more.
  induction n with
  | zero =>
    rw [Nat.zero_mul]
    exact .pure _
  | succ n ih =>
    rw [Nat.succ_mul]
    exact ih.bind fun _ => takes.bind fun _ => .pure _

/-- What a reader finds is written as the bytes that it took. -/
def Restores (reader : Reader α) (write : α → Bytes) : Prop :=
  ∀ ⦃bytes rest : Bytes⦄ ⦃value : α⦄,
    reader bytes = some (value, rest) → bytes = write value ++ rest

/-- A value that was changed is written as before when the change is taken back. -/
theorem Restores.map {reader : Reader α} {write : α → Bytes} (restores : Restores reader write)
    {change : α → β} {writeChanged : β → Bytes}
    (undone : ∀ value, writeChanged (change value) = write value) :
    Restores (change <$> reader) writeChanged := by
  intro bytes rest value read
  -- What was read is the change of what the reader found behind the same bytes.
  obtain ⟨⟨found, left⟩, first, same⟩ := Option.map_eq_some_iff.mp ((map_apply _ _ _).symm.trans read)
  obtain ⟨rfl, rfl⟩ := Prod.mk.inj same
  rw [undone]
  exact restores first

/-- A byte that was read is the byte that was there. -/
theorem restores_uint8 : Restores uint8 fun byte => [byte] := by
  intro bytes rest value read
  cases bytes with
  | nil => cases read
  | cons byte bytes =>
    obtain ⟨rfl, rfl⟩ := Prod.mk.inj (Option.some.inj read)
    rfl

/-- A signed byte that was read is the byte that was there. -/
theorem restores_int8 : Restores int8 Bytes.ofInt8 :=
  restores_uint8.map fun value => congrArg (fun byte => [byte]) value.toUInt8_toInt8

/-- A number of two bytes that was read stands in the bytes that were there. -/
theorem restores_uint16 : Restores uint16 Bytes.ofUInt16 := by
  intro bytes rest value read
  obtain ⟨⟨low, middle⟩, first, read⟩ := Option.bind_eq_some_iff.mp read
  obtain ⟨⟨high, behind⟩, second, read⟩ := Option.bind_eq_some_iff.mp read
  obtain ⟨rfl, rfl⟩ := Prod.mk.inj (Option.some.inj read)
  -- Each byte stands where it was read, the lower one first.
  rw [restores_uint8 first, restores_uint8 second, Bytes.ofUInt16_pair]
  rfl

/-- A signed number of two bytes that was read stands in the bytes that were there. -/
theorem restores_int16 : Restores int16 Bytes.ofInt16 :=
  restores_uint16.map fun value => congrArg Bytes.ofUInt16 value.toUInt16_toInt16

/-- A number of four bytes that was read stands in the bytes that were there. -/
theorem restores_uint32 : Restores uint32 Bytes.ofUInt32 := fun _ _ _ read => uint32_eq_some.mp read

/-- A signed number of four bytes that was read stands in the bytes that were there. -/
theorem restores_int32 : Restores int32 Bytes.ofInt32 :=
  restores_uint32.map fun value => congrArg Bytes.ofUInt32 value.toUInt32_toInt32

/-- A number of eight bytes that was read stands in the bytes that were there. -/
theorem restores_uint64 : Restores uint64 Bytes.ofUInt64 := by
  intro bytes rest value read
  obtain ⟨⟨low, middle⟩, first, read⟩ := Option.bind_eq_some_iff.mp read
  obtain ⟨⟨high, behind⟩, second, read⟩ := Option.bind_eq_some_iff.mp read
  obtain ⟨rfl, rfl⟩ := Prod.mk.inj (Option.some.inj read)
  -- The halves were read one behind the other, the lower one first.
  rw [Bytes.ofUInt64_halves, List.append_assoc, ← restores_uint32 second, ← restores_uint32 first]

/-- A run of bytes that was read is what was there. -/
theorem restores_bytes (length : Nat) : Restores (Reader.bytes length) fun bytes => bytes := by
  intro bytes rest value read
  simp only [Reader.bytes] at read
  -- Only a run of the full length is read at all.
  split at read
  · obtain ⟨rfl, rfl⟩ := Prod.mk.inj (Option.some.inj read)
    exact (List.take_append_drop length bytes).symm
  · cases read

/-- Items that were read stand in the bytes that were there when each one does. -/
theorem Restores.vector {item : Reader α} {write : α → Bytes} (restores : Restores item write)
    (n : Nat) : Restores (Reader.vector item n) (Bytes.ofVector write) := by
  -- The reader takes the last item after all others, so the induction splits it off at the back.
  induction n with
  | zero =>
    intro bytes rest value read
    obtain ⟨rfl, rfl⟩ := Prod.mk.inj (Option.some.inj read)
    rfl
  | succ n ih =>
    intro bytes rest value read
    obtain ⟨⟨front, middle⟩, first, read⟩ := Option.bind_eq_some_iff.mp read
    obtain ⟨⟨last, behind⟩, second, read⟩ := Option.bind_eq_some_iff.mp read
    obtain ⟨rfl, rfl⟩ := Prod.mk.inj (Option.some.inj read)
    rw [ih first, restores second]
    simp [Bytes.ofVector, Vector.toList_push]

end Reader

end Mixdown
