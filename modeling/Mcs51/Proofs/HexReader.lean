import Mcs51.Hex.Record
import Mcs51.Text.StringLiteral

/-!
# Reading HEX files

A reader of Intel HEX files, and that it understands the lines of records. Each line has a colon and
two hexadecimal digits for each byte: the number of data bytes, the address, the kind, the data, and
a byte that makes the sum a multiple of 256. The reader refuses a line whose number of data bytes or
whose sum is wrong, and a file that does not end with its only end-of-file record.

* `readFile?`: the bytes of a file with their addresses, in file order
* `entryOf?_bytes`: the bytes of a record say what the record is
* `readFile?_lines`: the lines of data records and an end-of-file record are read back
-/

namespace Mcs51.Hex

/-! ## The reader -/

/-- Bytes with their addresses, which count on from the given one. -/
def locate : Nat → List UInt8 → List (Nat × UInt8)
  | _, [] => []
  | address, b :: bytes => (address, b) :: locate (address + 1) bytes

/-- The bytes of a row of hexadecimal digits, two for each byte. -/
def hexBytes? : Text → Option (List UInt8)
  | [] => some []
  | [_] => none
  | high :: low :: digits => do
    let h ← Text.hexDigitValue? high
    let l ← Text.hexDigitValue? low
    let bytes ← hexBytes? digits
    return (h * 16 + l).toUInt8 :: bytes

/-- The sum of bytes. -/
def byteSum : List UInt8 → Nat
  | [] => 0
  | b :: bytes => b.toNat + byteSum bytes

/-- What a record says. -/
inductive Entry where
  | data (address : Nat) (bytes : List UInt8)
  | endOfFile
  deriving Repr, DecidableEq

/-- What the bytes of a record say, if their number and their sum are right. -/
def entryOf? : List UInt8 → Option Entry
  | count :: high :: low :: kind :: rest =>
    if rest.length = count.toNat + 1 ∧ byteSum (count :: high :: low :: kind :: rest) % 256 = 0 then
      if kind = 0 then some (.data (high.toNat * 256 + low.toNat) rest.dropLast)
      else if kind = 1 ∧ count = 0 then some .endOfFile
      else none
    else none
  | _ => none

/-- What a line says, without its line feed. -/
def entryOfLine? : Text → Option Entry
  | [] => none
  | b :: digits => if b = ':'.toUInt8 then hexBytes? digits >>= entryOf? else none

/-- The bytes in lines with their addresses. After the end-of-file record there is nothing but the
end of its line. -/
def readLines? : List Text → Option (List (Nat × UInt8))
  | [] => none
  | line :: lines => do
    match ← entryOfLine? line with
    | .data address bytes =>
      let more ← readLines? lines
      return locate address bytes ++ more
    | .endOfFile => if lines = [[]] then some [] else none

/-- The bytes of a file with their addresses, in file order. -/
def readFile? (text : Text) : Option (List (Nat × UInt8)) :=
  readLines? (Text.splitOn Text.lineFeed text)

/-! ## Addresses -/

theorem locate_append : ∀ (bytes more : List UInt8) (address : Nat),
    locate address (bytes ++ more) = locate address bytes ++ locate (address + bytes.length) more
  | [], more, address => by simp [locate]
  | b :: bytes, more, address => by
    rw [List.cons_append, locate, locate, locate_append bytes more, List.length_cons,
      List.cons_append, Nat.add_right_comm, Nat.add_assoc]

/-! ## Digits -/

theorem hexDigitValue?_upperHexDigit {d : Nat} (h : d < 16) :
    Text.hexDigitValue? (Text.upperHexDigit d) = some d := by
  have hall : ∀ d < 16, Text.hexDigitValue? (Text.upperHexDigit d) = some d := by decide
  exact hall d h

theorem upperHexDigit_ne_lineFeed {d : Nat} (h : d < 16) :
    Text.upperHexDigit d ≠ Text.lineFeed := by
  have hall : ∀ d < 16, Text.upperHexDigit d ≠ Text.lineFeed := by decide
  exact hall d h

/-- **The digits of bytes are read back.** -/
theorem hexBytes?_ofByteHex : ∀ bytes : List UInt8,
    hexBytes? (bytes.flatMap Text.ofByteHex) = some bytes
  | [] => rfl
  | b :: bytes => by
    have hb := b.toNat_lt
    have hbyte : (b.toNat / 16 * 16 + b.toNat % 16).toUInt8 = b := by
      rw [Nat.div_add_mod', Nat.toUInt8_eq, UInt8.ofNat_toNat]
    rw [List.flatMap_cons, Text.ofByteHex, List.cons_append, List.cons_append, List.nil_append,
      hexBytes?, hexDigitValue?_upperHexDigit (by omega), hexDigitValue?_upperHexDigit (by omega),
      hexBytes?_ofByteHex bytes]
    simp only [Option.bind_eq_bind, Option.bind_some, Option.pure_def, hbyte]

theorem lineFeed_not_mem_ofByteHex (bytes : List UInt8) :
    Text.lineFeed ∉ bytes.flatMap Text.ofByteHex := by
  intro h
  obtain ⟨b, _, hb⟩ := List.mem_flatMap.mp h
  have hlt := b.toNat_lt
  rcases List.mem_cons.mp hb with hb | hb
  · exact upperHexDigit_ne_lineFeed (by omega) hb.symm
  · exact upperHexDigit_ne_lineFeed (by omega) (List.mem_singleton.mp hb).symm

/-! ## Sums -/

theorem byteSum_append : ∀ bytes more : List UInt8,
    byteSum (bytes ++ more) = byteSum bytes + byteSum more
  | [], more => by simp [byteSum]
  | b :: bytes, more => by
    rw [List.cons_append, byteSum, byteSum, byteSum_append bytes more, Nat.add_assoc]

/-- Bytes are added up in words of eight bits. -/
theorem toNat_foldl_add : ∀ (bytes : List UInt8) (start : UInt8),
    (bytes.foldl (· + ·) start).toNat = (start.toNat + byteSum bytes) % 256
  | [], start => by
    have hstart := start.toNat_lt
    simp only [List.foldl_nil, byteSum]
    omega
  | b :: bytes, start => by
    rw [List.foldl_cons, toNat_foldl_add bytes, UInt8.toNat_add, byteSum]
    omega

/-- **With its checksum, the sum of a record is a multiple of 256.** -/
theorem byteSum_checksum (bytes : List UInt8) :
    byteSum (bytes ++ [checksum bytes]) % 256 = 0 := by
  have hsum := toNat_foldl_add bytes 0
  have hzero : (0 : UInt8).toNat = 0 := rfl
  have hsize : UInt8.size = 256 := rfl
  rw [byteSum_append, byteSum, byteSum, checksum, UInt8.toNat_neg, hsum, hzero, hsize]
  omega

/-! ## Records -/

/-- All bytes of a record, its checksum included. -/
def Record.bytes (r : Record) : List UInt8 := r.body ++ [checksum r.body]

/-- The digits of a record are a line that ends with a line feed. -/
theorem Record.line_eq (r : Record) :
    r.line = (':'.toUInt8 :: r.bytes.flatMap Text.ofByteHex) ++ [Text.lineFeed] := rfl

/-- The reader takes the bytes of a record of at most 255 data bytes for what it is. -/
theorem entryOf?_bytes {r : Record} (hlength : r.data.length ≤ 255) :
    entryOf? r.bytes =
      if r.kind.code = 0 then
        some (.data ((r.address >>> 8).toUInt8.toNat * 256 + r.address.toUInt8.toNat) r.data)
      else if r.kind.code = 1 ∧ r.data.length.toUInt8 = 0 then some .endOfFile
      else none := by
  have hcount : r.data.length.toUInt8.toNat = r.data.length := by
    show r.data.length % 2 ^ 8 = r.data.length
    omega
  have hsum := byteSum_checksum r.body
  have hbytes : r.body ++ [checksum r.body] = r.data.length.toUInt8 :: (r.address >>> 8).toUInt8 ::
      r.address.toUInt8 :: r.kind.code :: (r.data ++ [checksum r.body]) := rfl
  rw [hbytes] at hsum
  rw [Record.bytes, hbytes, entryOf?, if_pos ⟨by simp [hcount], hsum⟩, List.dropLast_concat]

theorem entryOf?_data {r : Record} (hkind : r.kind = .data) (hlength : r.data.length ≤ 255)
    (haddress : r.address.toNat < 65536) :
    entryOf? r.bytes = some (.data r.address.toNat r.data) := by
  have hword : (r.address >>> 8).toUInt8.toNat * 256 + r.address.toUInt8.toNat
      = r.address.toNat := by
    rw [UInt32.toNat_toUInt8, UInt32.toNat_toUInt8, UInt32.toNat_shiftRight,
      Nat.shiftRight_eq_div_pow]
    simp only [UInt32.reduceToNat, Nat.reduceMod]
    omega
  have hdata : RecordKind.data.code = 0 := rfl
  rw [entryOf?_bytes hlength, hkind, if_pos hdata, hword]

theorem entryOf?_endOfFile (address : UInt32) :
    entryOf? (Record.bytes ⟨address, .endOfFile, []⟩) = some .endOfFile := by
  rw [entryOf?_bytes (Nat.zero_le _)]
  rfl

theorem entryOfLine?_bytes (bytes : List UInt8) :
    entryOfLine? (':'.toUInt8 :: bytes.flatMap Text.ofByteHex) = entryOf? bytes := by
  rw [entryOfLine?, if_pos rfl, hexBytes?_ofByteHex]
  rfl

/-! ## Files -/

/-- A line is cut off at its line feed. -/
theorem splitOn_line : ∀ {line : Text}, Text.lineFeed ∉ line → ∀ rest : Text,
    Text.splitOn Text.lineFeed (line ++ [Text.lineFeed] ++ rest)
      = line :: Text.splitOn Text.lineFeed rest
  | [], _, rest => by simp [Text.splitOn]
  | b :: line, h, rest => by
    have hb : (b == Text.lineFeed) = false := by
      rw [beq_eq_false_iff_ne]
      exact fun heq => h (heq ▸ List.mem_cons_self)
    have ih := splitOn_line (fun hm => h (List.mem_cons_of_mem b hm)) rest
    rw [List.cons_append, List.cons_append, Text.splitOn, ih, hb]
    rfl

/-- The first line of a file is a record, and the others follow. -/
theorem splitOn_record (r : Record) (rest : Text) :
    Text.splitOn Text.lineFeed (r.line ++ rest)
      = (':'.toUInt8 :: r.bytes.flatMap Text.ofByteHex) :: Text.splitOn Text.lineFeed rest := by
  rw [Record.line_eq]
  apply splitOn_line
  intro h
  rcases List.mem_cons.mp h with h | h
  · exact absurd h (by decide)
  · exact lineFeed_not_mem_ofByteHex r.bytes h

/-- A data record that a reader can understand: its length has one byte, its address two. -/
def Record.Readable (r : Record) : Prop :=
  r.kind = .data ∧ r.data.length ≤ 255 ∧ r.address.toNat < 65536

/-- **A file of data records that ends with an end-of-file record is read back.** -/
theorem readFile?_lines : ∀ {records : List Record}, (∀ r ∈ records, r.Readable) →
    readFile? ((records ++ [Record.mk 0 .endOfFile []]).flatMap Record.line)
      = some (records.flatMap fun r => locate r.address.toNat r.data)
  | [], _ => by
    rw [List.nil_append, List.flatMap_singleton, ← List.append_nil (Record.line _), readFile?,
      splitOn_record, readLines?, entryOfLine?_bytes, entryOf?_endOfFile]
    rfl
  | r :: records, h => by
    obtain ⟨hkind, hlength, haddress⟩ := h r List.mem_cons_self
    have ih : readLines? (Text.splitOn Text.lineFeed _) = _ :=
      readFile?_lines fun s hs => h s (List.mem_cons_of_mem r hs)
    rw [List.cons_append, List.flatMap_cons, readFile?, splitOn_record, readLines?,
      entryOfLine?_bytes, entryOf?_data hkind hlength haddress]
    simp only [Option.bind_eq_bind, Option.bind_some, ih, Option.pure_def, List.flatMap_cons]

end Mcs51.Hex
