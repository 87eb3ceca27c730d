import IotivityLite.Security.UuidText
import IotivityLite.Server.InstanceIndex

/-!
# Addresses as texts

How `oc_ip.c` prints the addresses of endpoints and how `oc_endpoint.c` reads
them.  The reader of IPv4 addresses takes whatever `strtoul` makes of the
text; the one of IPv6 addresses looks for segments of up to four characters
and knows no segment in the notation of IPv4.
-/

namespace IotivityLite

namespace AddressText

/-- The bytes of an address. -/
structure Octets (size : Nat) where
  bytes : Bytes
  length_bytes : bytes.length = size
  deriving DecidableEq

/-- The given bytes, filled up with zeros. -/
def Octets.ofBytes (size : Nat) (bytes : Bytes) : Octets size where
  bytes := bytes.take size ++ List.replicate (size - bytes.length) 0
  length_bytes := by
    rw [List.length_append, List.length_take, List.length_replicate]
    omega

theorem Octets.ofBytes_bytes {size : Nat} (address : Octets size) :
    Octets.ofBytes size address.bytes = address := by
  obtain ⟨bytes, rfl⟩ := address
  simp [Octets.ofBytes]

/-- Numbers with dots between them. -/
def dotted (octets : Bytes) : Bytes :=
  [46].intercalate (octets.map fun octet => numeral octet.toNat)

/-- The bytes of an address, two at a time. -/
def groups : Bytes → List (UInt8 × UInt8)
  | high :: low :: rest => (high, low) :: groups rest
  | _ => []

/-- A group in hexadecimal without leading zeros. -/
def hexGroup (group : UInt8 × UInt8) : Bytes :=
  let digits := [group.1 / 16, group.1 % 16, group.2 / 16].dropWhile (· = 0)
  (digits ++ [group.2 % 16]).map hexDigit

/-- The number of zero groups from a position on. -/
def zeroRun (address : List (UInt8 × UInt8)) (start : Nat) : Nat :=
  ((address.drop start).takeWhile (· = (0, 0))).length

/-- Where the first of the longest runs of zero groups begins. -/
def longestRun (address : List (UInt8 × UInt8)) : Nat :=
  (List.range address.length).foldl
    (fun best start =>
      if zeroRun address best < zeroRun address start then start else best) 0

/-- The segments, with the longest run of zero groups cut out if there is
more than one group in it. -/
def compressed (address : List (UInt8 × UInt8)) (segments : List Bytes) :
    Bytes :=
  let start := longestRun address
  let count := zeroRun address start
  if 2 ≤ count then
    [58].intercalate (segments.take start) ++
      58 :: 58 :: [58].intercalate (segments.drop (start + count))
  else [58].intercalate segments

section Printer

/- The addresses that `inet_ntop` takes to have an IPv4 address in their last
four bytes. -/
variable (mixed : Octets 16 → Bool)

/-- `inet_ntop` for `AF_INET6` -/
def inetNtop (address : Octets 16) : Bytes :=
  let all := groups address.bytes
  if mixed address then
    compressed (all.take 6)
      ((all.take 6).map hexGroup ++ [dotted (address.bytes.drop 12)])
  else compressed all (all.map hexGroup)

/-- What fits into a buffer together with its terminating zero. -/
def printed (text : Bytes) (bufferSize : Nat) : Option Bytes :=
  if text.length < bufferSize then some text else none

def ocIpv4AddressToString (ipv4 : Octets 4) (bufferSize : Nat) :
    Option Bytes :=
  printed (dotted ipv4.bytes) bufferSize

def ocIpv4AddressAndPortToString (ipv4 : Octets 4) (port : UInt16)
    (bufferSize : Nat) : Option Bytes :=
  match ocIpv4AddressToString ipv4 bufferSize with
  | none => none
  | some address =>
      (printed (58 :: numeral port.toNat) (bufferSize - address.length)).map
        (address ++ ·)

def ocIpv6AddressToString (ipv6 : Octets 16) (bufferSize : Nat) :
    Option Bytes :=
  printed (inetNtop mixed ipv6) bufferSize

/-- The shortest address with a port is `[::1]:X`. -/
def ocIpv6AddressAndPortToString (ipv6 : Octets 16) (port : UInt16)
    (bufferSize : Nat) : Option Bytes :=
  if bufferSize < 8 then none
  else
    match ocIpv6AddressToString mixed ipv6 (bufferSize - 1) with
    | none => none
    | some address =>
        (printed (93 :: 58 :: numeral port.toNat)
          (bufferSize - (1 + address.length))).map (91 :: address ++ ·)

end Printer

def ulongMax : Nat := 2 ^ 64 - 1

/-- `strtoul` with base 10 for an `unsigned long` of 64 bits: the number, and
the text from `*endptr` on. -/
def strtoul (text : Bytes) : UInt64 × Bytes :=
  let sign := splitSign (text.dropWhile isSpace)
  let digits := sign.2.takeWhile isDigit
  if digits = [] then (0, text)
  else
    let number := JsonInteger.ofDigits digits
    (if ulongMax < number then UInt64.ofNat ulongMax
      else if sign.1 then -UInt64.ofNat number
      else UInt64.ofNat number,
      sign.2.drop digits.length)

/-- The loop of `oc_parse_ipv4_address`, with the number of bytes that are
still to come.  The address is followed by the rest of the text. -/
def ipv4Bytes (address : Bytes) (len : Nat) : (count strIdx : Nat) → Bytes
  | 0, _ => []
  | count + 1, strIdx =>
      if strIdx < len then
        let segment := strtoul (address.drop strIdx)
        segment.1.toUInt8 ::
          ipv4Bytes address len count (address.length - segment.2.length + 1)
      else []

def ocParseIpv4Address (address : Bytes) (len : Nat) : Octets 4 :=
  Octets.ofBytes 4 (ipv4Bytes address len 4 0)

/-- What `hex_to_bin` adds for a character; it is the character itself when
that is no digit. -/
def hexValue (character : UInt8) : UInt8 :=
  if isDigit character then character - 48
  else if 97 ≤ character ∧ character ≤ 102 then character - 87
  else if 65 ≤ character ∧ character ≤ 70 then character - 55
  else character

/-- The loop of `hex_to_bin`. -/
def hexToBinFrom (b : UInt8) : Bytes → UInt8
  | [] => b
  | [h] => b ||| hexValue h
  | h :: hex => hexToBinFrom ((b ||| hexValue h) <<< 4) hex

def hexToBin (hex : Bytes) : UInt8 := hexToBinFrom 0 hex

/-- The bytes of the segment at the beginning of a text, and the text behind
it; `none` for a segment of more than four characters. -/
def readSegment (text : Bytes) : Option (Bytes × Bytes) :=
  match (text.takeWhile (· ≠ 58)).length with
  | 4 =>
      some ([hexToBin (text.take 2), hexToBin ((text.drop 2).take 2)],
        text.drop 4)
  | 3 =>
      some ([hexToBin (text.take 1), hexToBin ((text.drop 1).take 2)],
        text.drop 3)
  | 2 => some ([0, hexToBin (text.take 2)], text.drop 2)
  | 1 => some ([0, hexToBin (text.take 1)], text.drop 1)
  | 0 => some ([], text.drop 1)
  | _ => none

/-- Behind the colons that stand for zeros. -/
def skipDoubled (split : Option Nat) (text : Bytes) : Bytes :=
  if split = none ∧ text.take 2 = [58, 58] then text.drop 2 else text

def splitAt (split : Option Nat) (text : Bytes) (addrIdx : Nat) :
    Option Nat :=
  if split = none ∧ text.take 2 = [58, 58] then some addrIdx else split

variable {text bytes rest : Bytes}

theorem length_of_readSegment (read : readSegment text = some (bytes, rest)) :
    rest.length = text.length - max 1 (text.takeWhile (· ≠ 58)).length := by
  unfold readSegment at read
  split at read
  all_goals simp_all only [Option.some.injEq, Prod.mk.injEq, reduceCtorEq]
  all_goals
    obtain ⟨-, rfl⟩ := read
    rw [List.length_drop]
    rfl

theorem length_skipDoubled_le (split : Option Nat) (text : Bytes) :
    (skipDoubled split text).length ≤ text.length := by
  unfold skipDoubled
  split_ifs
  · rw [List.length_drop]
    omega
  · exact Nat.le_refl _

variable {split : Option Nat}

theorem length_rest_lt (more : text ≠ [])
    (read : readSegment (skipDoubled split text) = some (bytes, rest)) :
    rest.length < text.length := by
  have shorter := length_skipDoubled_le split text
  have positive := List.length_pos_iff.mpr more
  rw [length_of_readSegment read]
  omega

/-- The loop of `oc_parse_ipv6_address`: the bytes that are known, and the
number of them in front of the colons that stand for zeros. -/
def ipv6Loop (text addr : Bytes) (split : Option Nat) :
    Option (Bytes × Option Nat) :=
  if _more : addr.length < 15 ∧ text ≠ [] then
    match _read : readSegment (skipDoubled split text) with
    | none => none
    | some (bytes, rest) =>
        ipv6Loop rest (addr ++ bytes) (splitAt split text addr.length)
  else some (addr, split)
termination_by text.length
decreasing_by exact length_rest_lt _more.2 _read

/-- The loop that moves the bytes behind the colons to the end, the last one
first. -/
def moveUp (gap split : Nat) : (count : Nat) → Bytes → Bytes
  | 0, addr => addr
  | count + 1, addr =>
      moveUp gap split count
        ((addr.set (split + count + gap) (addr.getD (split + count) 0)).set
          (split + count) 0)

def ocParseIpv6Address (address : Bytes) : Option (Octets 16) :=
  match ipv6Loop address [] none with
  | none => none
  | some (addr, none) => some (.ofBytes 16 addr)
  | some (addr, some split) =>
      some (.ofBytes 16 (moveUp (16 - addr.length) split
        (addr.length - split) (Octets.ofBytes 16 addr).bytes))

/-- No digit comes next. -/
def EndsNumber (rest : Bytes) : Prop :=
  ∀ byte ∈ rest.head?, isDigit byte = false

theorem EndsNumber.takeWhile (ends : EndsNumber rest) :
    rest.takeWhile isDigit = [] := by
  cases rest with
  | nil => rfl
  | cons byte rest =>
      exact List.takeWhile_cons_of_neg (by simp [ends byte rfl])

theorem strtoul_digits {digits rest : Bytes} (nonempty : digits ≠ [])
    (areDigits : ∀ byte ∈ digits, isDigit byte = true)
    (ends : EndsNumber rest) :
    strtoul (digits ++ rest) =
      (if ulongMax < JsonInteger.ofDigits digits then UInt64.ofNat ulongMax
        else UInt64.ofNat (JsonInteger.ofDigits digits), rest) := by
  obtain ⟨byte, more, rfl⟩ := List.exists_cons_of_ne_nil nonempty
  obtain ⟨space, minus, plus⟩ :=
    not_isSpace_of_isDigit (areDigits byte (List.mem_cons_self ..))
  have sign : splitSign ((byte :: more ++ rest).dropWhile isSpace) =
      (false, byte :: more ++ rest) := by
    rw [List.cons_append, List.dropWhile_cons_of_neg (by simp [space]),
      splitSign, if_neg minus, if_neg plus]
  have taken : (byte :: more ++ rest).takeWhile isDigit = byte :: more := by
    rw [List.takeWhile_append_of_pos areDigits, ends.takeWhile,
      List.append_nil]
  rw [strtoul, sign]
  dsimp only
  rw [taken, if_neg nonempty, List.drop_left]
  rfl

theorem strtoul_numeral (octet : UInt8) (ends : EndsNumber rest) :
    strtoul (numeral octet.toNat ++ rest) =
      (UInt64.ofNat octet.toNat, rest) := by
  have own := areDigitsOf_numeral octet.toNat
  have small : ¬ ulongMax < octet.toNat := by
    have bound := octet.toNat_lt
    unfold ulongMax
    omega
  rw [strtoul_digits own.nonempty own.areDigits ends, own.value,
    if_neg small]

/-- What follows the first of the numbers. -/
def dottedRest (octets : Bytes) : Bytes :=
  if octets = [] then [] else 46 :: dotted octets

theorem dotted_cons (octet : UInt8) (octets : Bytes) :
    dotted (octet :: octets) = numeral octet.toNat ++ dottedRest octets := by
  cases octets with
  | nil => simp [dotted, dottedRest]
  | cons next octets =>
      simp only [dotted, dottedRest, List.map_cons,
        List.intercalate_cons_cons, reduceCtorEq, if_false,
        List.append_assoc, List.cons_append, List.nil_append]

theorem ipv4Bytes_dotted {octets rest : Bytes} (ends : EndsNumber rest)
    (front : Bytes) :
    ipv4Bytes (front ++ dotted octets ++ rest)
      (front ++ dotted octets).length octets.length front.length =
        octets := by
  induction octets generalizing front with
  | nil => rfl
  | cons octet octets ih =>
      have own := List.length_pos_iff.mpr
        (areDigitsOf_numeral octet.toNat).nonempty
      have endsHere : EndsNumber (dottedRest octets ++ rest) := by
        unfold dottedRest
        split_ifs
        · exact ends
        · intro byte first
          obtain rfl := Option.some.inj first
          rfl
      have inside : front.length <
          (front ++ dotted (octet :: octets)).length := by
        rw [dotted_cons, List.length_append, List.length_append]
        omega
      have segment : strtoul ((front ++ dotted (octet :: octets) ++
          rest).drop front.length) =
            (UInt64.ofNat octet.toNat, dottedRest octets ++ rest) := by
        rw [List.append_assoc, List.drop_left, dotted_cons,
          List.append_assoc, strtoul_numeral octet endsHere]
      rw [List.length_cons, ipv4Bytes, if_pos inside, segment]
      dsimp only
      refine congrArg₂ List.cons (by simp) ?_
      cases octets with
      | nil => rfl
      | cons next octets =>
          have moved := ih (front ++ numeral octet.toNat ++ [46])
          have address : front ++ dotted (octet :: next :: octets) =
              front ++ numeral octet.toNat ++ [46] ++
                dotted (next :: octets) := by
            simp [dotted_cons octet, dottedRest]
          have behind : (front ++ dotted (octet :: next :: octets) ++
              rest).length - (dottedRest (next :: octets) ++ rest).length +
                1 = (front ++ numeral octet.toNat ++ [46]).length := by
            rw [address]
            simp only [dottedRest, reduceCtorEq, if_false,
              List.length_append, List.length_cons, List.length_nil]
            omega
          rw [behind, address]
          exact moved

theorem ocParseIpv4Address_dotted (ipv4 : Octets 4) (ends : EndsNumber rest) :
    ocParseIpv4Address (dotted ipv4.bytes ++ rest)
      (dotted ipv4.bytes).length = ipv4 := by
  have read := @ipv4Bytes_dotted ipv4.bytes rest ends []
  rw [ipv4.length_bytes, List.nil_append, List.length_nil] at read
  rw [ocParseIpv4Address, read]
  exact Octets.ofBytes_bytes ipv4

/-- No more characters of a segment come next. -/
def EndsSegment (rest : Bytes) : Prop :=
  ∀ byte ∈ rest.head?, byte = 58

/-- A segment comes next. -/
def StartsSegment (text : Bytes) : Prop :=
  ∃ byte rest, text = byte :: rest ∧ byte ≠ 58

theorem startsSegment_of_clean {segment : Bytes} (nonempty : segment ≠ [])
    (clean : 58 ∉ segment) (rest : Bytes) :
    StartsSegment (segment ++ rest) := by
  obtain ⟨byte, more, rfl⟩ := List.exists_cons_of_ne_nil nonempty
  exact ⟨byte, more ++ rest, rfl, fun colon => clean (by simp [colon])⟩

theorem startsSegment_intercalate {segment : Bytes}
    (nonempty : segment ≠ []) (clean : 58 ∉ segment)
    (segments : List Bytes) (rest : Bytes) :
    StartsSegment ([58].intercalate (segment :: segments) ++ rest) := by
  cases segments with
  | nil =>
      rw [List.intercalate_singleton]
      exact startsSegment_of_clean nonempty clean _
  | cons next segments =>
      rw [List.intercalate_cons_cons, List.append_assoc, List.append_assoc]
      exact startsSegment_of_clean nonempty clean _

theorem takeWhile_segment {segment rest : Bytes} (clean : 58 ∉ segment)
    (ends : EndsSegment rest) :
    (segment ++ rest).takeWhile (· ≠ 58) = segment := by
  rw [List.takeWhile_append_of_pos]
  · cases rest with
    | nil => simp
    | cons byte rest => simp [ends byte rfl]
  · intro byte member
    exact decide_eq_true fun colon => clean (colon ▸ member)

theorem hexDigit_ne {value : UInt8} (small : value < 16) :
    isHexDigit (hexDigit value) = true ∧ hexToBin [hexDigit value] = value := by
  revert small
  apply forall_byte (fun number below => ?_) value
  revert number
  decide +kernel

theorem hexToBin_pair (value : UInt8) :
    value / 16 < 16 ∧ value % 16 < 16 ∧
      (value / 16 = 0 → value % 16 = value) ∧
      hexToBin [hexDigit (value / 16), hexDigit (value % 16)] = value := by
  apply forall_byte (fun number below => ?_) value
  revert number
  decide +kernel

variable {byte : UInt8}

theorem ne_of_isHexDigit (hex : isHexDigit byte = true) :
    byte ≠ 47 ∧ byte ≠ 58 ∧ byte ≠ 91 ∧ byte ≠ 93 := by
  refine ⟨?_, ?_, ?_, ?_⟩
  all_goals
    rintro rfl
    simp [isHexDigit] at hex

variable (group : UInt8 × UInt8)

theorem isHexDigit_hexGroup :
    ∀ byte ∈ hexGroup group, isHexDigit byte = true := by
  intro byte member
  obtain ⟨value, inDigits, rfl⟩ := List.mem_map.mp member
  obtain ⟨high, highLow, -⟩ := hexToBin_pair group.1
  obtain ⟨low, lowLow, -⟩ := hexToBin_pair group.2
  refine (hexDigit_ne ?_).1
  rcases List.mem_append.mp inDigits with front | last
  · have all := (List.dropWhile_suffix _).subset front
    simp only [List.mem_cons, List.not_mem_nil, or_false] at all
    rcases all with rfl | rfl | rfl
    · exact high
    · exact highLow
    · exact low
  · rwa [List.mem_singleton.mp last]

theorem clean_hexGroup : 58 ∉ hexGroup group :=
  fun member =>
    (ne_of_isHexDigit (isHexDigit_hexGroup group 58 member)).2.1 rfl

theorem hexGroup_ne_nil : hexGroup group ≠ [] := by
  simp [hexGroup]

theorem readSegment_hexGroup (ends : EndsSegment rest) :
    readSegment (hexGroup group ++ rest) =
      some ([group.1, group.2], rest) := by
  have taken := takeWhile_segment (clean_hexGroup group) ends
  obtain ⟨high, low⟩ := group
  obtain ⟨-, highSmall, highZero, highPair⟩ := hexToBin_pair high
  obtain ⟨-, lowSmall, lowZero, lowPair⟩ := hexToBin_pair low
  have highOne := (hexDigit_ne highSmall).2
  have lowOne := (hexDigit_ne lowSmall).2
  rw [readSegment, taken]
  by_cases first : high / 16 = 0
  · rw [highZero first] at highOne highSmall
    by_cases second : high = 0
    · by_cases third : low / 16 = 0
      · rw [lowZero third] at lowOne
        simp [hexGroup, second, third, lowOne, lowZero third]
      · simp [hexGroup, second, third, lowPair]
    · simp [hexGroup, first, second, highZero first, highOne, lowPair]
  · simp [hexGroup, first, highPair, lowPair]

section Loop

variable {addr : Bytes}

theorem ipv6Loop_nil (split : Option Nat) :
    ipv6Loop [] addr split = some (addr, split) := by
  rw [ipv6Loop, dif_neg (by simp)]

theorem ipv6Loop_step (room : addr.length < 15) (more : text ≠ [])
    (read : readSegment (skipDoubled split text) = some (bytes, rest)) :
    ipv6Loop text addr split =
      ipv6Loop rest (addr ++ bytes) (splitAt split text addr.length) := by
  rw [ipv6Loop, dif_pos ⟨room, more⟩]
  split
  next absent =>
    rw [read] at absent
    cases absent
  next bytes' rest' present =>
    rw [read] at present
    obtain ⟨rfl, rfl⟩ := Prod.mk.inj (Option.some.inj present)
    rfl

theorem ipv6Loop_reject (room : addr.length < 15) (more : text ≠ [])
    (long : readSegment (skipDoubled split text) = none) :
    ipv6Loop text addr split = none := by
  rw [ipv6Loop, dif_pos ⟨room, more⟩]
  split
  · rfl
  next present =>
    rw [long] at present
    cases present

theorem not_doubled (starts : StartsSegment text) (split : Option Nat)
    (addrIdx : Nat) :
    skipDoubled split text = text ∧ splitAt split text addrIdx = split := by
  obtain ⟨byte, rest, rfl, noColon⟩ := starts
  have different : ¬ (split = none ∧
      (byte :: rest).take 2 = [58, 58]) := by
    simp [noColon]
  exact ⟨if_neg different, if_neg different⟩

theorem ipv6Loop_hexGroup (room : addr.length < 15) (group : UInt8 × UInt8)
    (ends : EndsSegment rest) (split : Option Nat) :
    ipv6Loop (hexGroup group ++ rest) addr split =
      ipv6Loop rest (addr ++ [group.1, group.2]) split := by
  have starts := startsSegment_of_clean (hexGroup_ne_nil group)
    (clean_hexGroup group) rest
  obtain ⟨skip, splitSame⟩ := not_doubled starts split addr.length
  have more : hexGroup group ++ rest ≠ [] :=
    List.append_ne_nil_of_left_ne_nil (hexGroup_ne_nil group) _
  rw [ipv6Loop_step room more
    (by rw [skip, readSegment_hexGroup group ends]), splitSame]

theorem ipv6Loop_colon (room : addr.length < 15) (starts : StartsSegment text)
    (split : Option Nat) :
    ipv6Loop (58 :: text) addr split = ipv6Loop text addr split := by
  obtain ⟨byte, rest, rfl, noColon⟩ := starts
  have different : ¬ (split = none ∧
      (58 :: byte :: rest).take 2 = [58, 58]) := by
    simp [noColon]
  have read : readSegment (skipDoubled split (58 :: byte :: rest)) =
      some ([], byte :: rest) := by
    rw [skipDoubled, if_neg different]
    rfl
  rw [ipv6Loop_step room (List.cons_ne_nil _ _) read, splitAt,
    if_neg different, List.append_nil]

theorem ipv6Loop_doubled (room : addr.length < 15) (rest : Bytes) :
    ipv6Loop (58 :: 58 :: rest) addr none =
      ipv6Loop rest addr (some addr.length) := by
  have skip : skipDoubled none (58 :: 58 :: rest) =
      skipDoubled (some addr.length) rest := by
    simp [skipDoubled]
  have splitHere : splitAt none (58 :: 58 :: rest) addr.length =
      splitAt (some addr.length) rest addr.length := by
    simp [splitAt]
  by_cases more : rest = []
  · subst more
    have read : readSegment (skipDoubled none [58, 58]) = some ([], []) := by
      decide
    rw [ipv6Loop_step room (List.cons_ne_nil _ _) read, ipv6Loop_nil,
      ipv6Loop_nil, List.append_nil]
    rfl
  · cases read : readSegment (skipDoubled (some addr.length) rest) with
    | none =>
        rw [ipv6Loop_reject room more read,
          ipv6Loop_reject room (List.cons_ne_nil _ _) (skip ▸ read)]
    | some segment =>
        rw [ipv6Loop_step room more read,
          ipv6Loop_step room (List.cons_ne_nil _ _) (skip ▸ read),
          splitHere]

end Loop

/-- The bytes of groups. -/
def ungroup (parts : List (UInt8 × UInt8)) : Bytes :=
  parts.flatMap fun group => [group.1, group.2]

theorem length_ungroup (parts : List (UInt8 × UInt8)) :
    (ungroup parts).length = 2 * parts.length := by
  induction parts with
  | nil => rfl
  | cons group parts ih =>
      rw [ungroup, List.flatMap_cons, List.length_append, ← ungroup, ih,
        List.length_cons, List.length_cons, List.length_cons,
        List.length_nil]
      omega

theorem length_append_pair (addr : Bytes) (group : UInt8 × UInt8) :
    (addr ++ [group.1, group.2]).length = addr.length + 2 := by
  rw [List.length_append, List.length_cons, List.length_cons,
    List.length_nil]

theorem ipv6Loop_next {addr text : Bytes} (room : addr.length < 13)
    (group : UInt8 × UInt8) (starts : StartsSegment text)
    (split : Option Nat) :
    ipv6Loop (hexGroup group ++ 58 :: text) addr split =
      ipv6Loop text (addr ++ [group.1, group.2]) split := by
  have colon : EndsSegment (58 :: text) :=
    fun byte first => (Option.some.inj first).symm
  have longer := length_append_pair addr group
  rw [ipv6Loop_hexGroup (Nat.lt_trans room (by decide)) group colon,
    ipv6Loop_colon (longer ▸ Nat.add_lt_add_right room 2) starts]

variable {parts : List (UInt8 × UInt8)}

theorem ipv6Loop_groups {addr rest : Bytes}
    (room : addr.length + 2 * parts.length ≤ 16) (ends : EndsSegment rest)
    (split : Option Nat) :
    ipv6Loop ([58].intercalate (parts.map hexGroup) ++ rest) addr split =
      ipv6Loop rest (addr ++ ungroup parts) split := by
  induction parts generalizing addr with
  | nil => simp [ungroup]
  | cons group parts ih =>
      rw [List.length_cons] at room
      have longer := length_append_pair addr group
      have bytes : addr ++ ungroup (group :: parts) =
          addr ++ [group.1, group.2] ++ ungroup parts := by
        simp [ungroup]
      rw [bytes, ← ih (by omega)]
      cases parts with
      | nil =>
          have small : addr.length < 15 := by omega
          rw [List.map_cons, List.map_nil, List.intercalate_singleton]
          exact ipv6Loop_hexGroup small group ends split
      | cons next parts =>
          rw [List.length_cons] at room
          have starts := startsSegment_intercalate (hexGroup_ne_nil next)
            (clean_hexGroup next) (parts.map hexGroup) rest
          have small : addr.length < 13 := by omega
          rw [List.map_cons, List.map_cons, List.intercalate_cons_cons,
            List.append_assoc, List.append_assoc, List.singleton_append]
          exact ipv6Loop_next small group starts split

theorem ipv6Loop_long {addr long : Bytes}
    (room : addr.length + 2 * parts.length < 15) (clean : 58 ∉ long)
    (tooLong : 4 < long.length) (split : Option Nat) :
    ipv6Loop ([58].intercalate (parts.map hexGroup ++ [long])) addr split =
      none := by
  have nonempty : long ≠ [] := List.ne_nil_of_length_pos (by omega)
  induction parts generalizing addr with
  | nil =>
      have starts := startsSegment_of_clean nonempty clean []
      have taken := @takeWhile_segment long [] clean
        (fun _ absent => by cases absent)
      rw [List.append_nil] at starts taken
      rw [List.map_nil, List.nil_append, List.intercalate_singleton]
      refine ipv6Loop_reject room nonempty ?_
      rw [(not_doubled starts split 0).1, readSegment, taken]
      split
      all_goals first
        | omega
        | rfl
  | cons group parts ih =>
      rw [List.length_cons] at room
      have longer := length_append_pair addr group
      have starts : StartsSegment
          ([58].intercalate (parts.map hexGroup ++ [long])) := by
        cases parts with
        | nil =>
            simpa using startsSegment_of_clean nonempty clean []
        | cons next parts =>
            simpa using startsSegment_intercalate (hexGroup_ne_nil next)
              (clean_hexGroup next) (parts.map hexGroup ++ [long]) []
      rw [List.map_cons, List.cons_append,
        List.intercalate_cons_of_ne_nil (by simp), List.append_assoc,
        List.singleton_append,
        ipv6Loop_next (by omega) group starts split]
      exact ih (by omega)

theorem set_behind (front : Bytes) (byte other : UInt8) (behind : Bytes) :
    (front ++ byte :: behind).set front.length other =
      front ++ other :: behind := by
  rw [List.set_append_right _ _ (Nat.le_refl _), Nat.sub_self,
    List.set_cons_zero]

theorem moveUp_step (front zeros behind : Bytes) (byte : UInt8) :
    ((front ++ byte :: (zeros ++ 0 :: behind)).set
      (front.length + (zeros.length + 1))
      ((front ++ byte :: (zeros ++ 0 :: behind)).getD front.length 0)).set
        front.length 0 =
      front ++ 0 :: (zeros ++ byte :: behind) := by
  have moved : (front ++ byte :: (zeros ++ 0 :: behind)).getD
      front.length 0 = byte := by
    simp [List.getD]
  have split : front ++ byte :: (zeros ++ 0 :: behind) =
      (front ++ byte :: zeros) ++ 0 :: behind := by
    simp
  have place : front.length + (zeros.length + 1) =
      (front ++ byte :: zeros).length := by
    simp
  rw [moved, split, place, set_behind, List.append_assoc,
    List.cons_append, set_behind]

theorem moveUp_append {gap : Nat} (positive : 0 < gap)
    (front moved behind : Bytes) :
    moveUp gap front.length moved.length
        (front ++ moved ++ List.replicate gap 0 ++ behind) =
      front ++ List.replicate gap 0 ++ moved ++ behind := by
  obtain ⟨gap, rfl⟩ := Nat.exists_eq_succ_of_ne_zero positive.ne'
  induction moved using List.reverseRecOn generalizing behind with
  | nil => simp [moveUp]
  | append_singleton moved byte ih =>
      have before : front ++ (moved ++ [byte]) ++
          List.replicate (gap + 1) 0 ++ behind =
            (front ++ moved) ++ byte ::
              (List.replicate gap 0 ++ 0 :: behind) := by
        simp [List.replicate_succ']
      have after : (front ++ moved) ++ 0 ::
          (List.replicate gap 0 ++ byte :: behind) =
            front ++ moved ++ List.replicate (gap + 1) 0 ++
              byte :: behind := by
        simp [List.replicate_succ]
      have step := moveUp_step (front ++ moved) (List.replicate gap 0)
        behind byte
      rw [List.length_append, List.length_replicate] at step
      rw [List.length_append, List.length_singleton, moveUp, before, step,
        after, ih]
      simp

theorem groups_facts {bytes : Bytes} (even : bytes.length % 2 = 0) :
    ungroup (groups bytes) = bytes ∧
      2 * (groups bytes).length = bytes.length := by
  induction bytes using groups.induct with
  | case1 high low rest ih =>
      rw [List.length_cons, List.length_cons] at even
      obtain ⟨same, length⟩ := ih (by omega)
      rw [groups]
      refine ⟨?_, ?_⟩
      · rw [ungroup, List.flatMap_cons, ← ungroup, same]
        rfl
      · simp only [List.length_cons]
        omega
  | case2 bytes short =>
      match bytes, short with
      | [], _ => exact ⟨rfl, rfl⟩
      | [_], _ => simp at even
      | high :: low :: rest, short => exact absurd rfl (short high low rest)

theorem ungroup_zeroRun (address : List (UInt8 × UInt8)) (start : Nat) :
    ungroup (address.take start) ++
        List.replicate (2 * zeroRun address start) 0 ++
          ungroup (address.drop (start + zeroRun address start)) =
      ungroup address := by
  have zeros : ∀ parts : List (UInt8 × UInt8),
      ungroup (parts.takeWhile (· = (0, 0))) =
        List.replicate (2 * (parts.takeWhile (· = (0, 0))).length) 0 := by
    intro parts
    refine List.eq_replicate_iff.mpr ⟨length_ungroup _, ?_⟩
    intro byte member
    obtain ⟨group, inRun, inGroup⟩ := List.mem_flatMap.mp member
    have isZero : group = (0, 0) := by
      simpa using List.mem_takeWhile_imp inRun
    rw [isZero] at inGroup
    simpa using inGroup
  have rest : address.drop (start + zeroRun address start) =
      (address.drop start).dropWhile (· = (0, 0)) := by
    rw [← List.drop_drop, zeroRun]
    nth_rewrite 2 [← List.takeWhile_append_dropWhile
      (p := (· = ((0, 0) : UInt8 × UInt8))) (l := address.drop start)]
    exact List.drop_left
  have together := congrArg ungroup
    (List.take_append_drop start address)
  rw [← together, rest, zeroRun, ← zeros]
  simp only [ungroup, List.flatMap_append]
  rw [List.append_assoc, ← List.flatMap_append,
    List.takeWhile_append_dropWhile]

theorem ipv6Loop_hexGroups {addr : Bytes}
    (room : addr.length + 2 * parts.length ≤ 16) (split : Option Nat) :
    ipv6Loop ([58].intercalate (parts.map hexGroup)) addr split =
      some (addr ++ ungroup parts, split) := by
  have ended : EndsSegment [] := fun _ absent => by cases absent
  have read := ipv6Loop_groups room ended split
  rwa [List.append_nil, ipv6Loop_nil] at read

theorem ipv6Loop_before {before : List (UInt8 × UInt8)}
    (short : 2 * before.length < 15) (rest : Bytes) :
    ipv6Loop ([58].intercalate (before.map hexGroup) ++ 58 :: 58 :: rest)
        [] none =
      ipv6Loop rest (ungroup before) (some (ungroup before).length) := by
  have colons : EndsSegment (58 :: 58 :: rest) :=
    fun byte first => (Option.some.inj first).symm
  have small : ([] : Bytes).length + 2 * before.length ≤ 16 := by
    rw [List.length_nil]
    omega
  rw [ipv6Loop_groups small colons none, List.nil_append,
    ipv6Loop_doubled (by rwa [length_ungroup])]

theorem ocParseIpv6Address_doubled {before after : List (UInt8 × UInt8)}
    (short : before.length + after.length < 8) :
    ocParseIpv6Address ([58].intercalate (before.map hexGroup) ++
        58 :: 58 :: [58].intercalate (after.map hexGroup)) =
      some (.ofBytes 16 (ungroup before ++ List.replicate
        (16 - 2 * (before.length + after.length)) 0 ++ ungroup after)) := by
  have beforeBytes := length_ungroup before
  have afterBytes := length_ungroup after
  have read : ipv6Loop ([58].intercalate (before.map hexGroup) ++
      58 :: 58 :: [58].intercalate (after.map hexGroup)) [] none =
        some (ungroup before ++ ungroup after,
          some (ungroup before).length) := by
    rw [ipv6Loop_before (by omega), ipv6Loop_hexGroups (by omega)]
  have total : (ungroup before ++ ungroup after).length =
      2 * (before.length + after.length) := by
    rw [List.length_append]
    omega
  have small : 2 * (before.length + after.length) < 16 := by omega
  generalize 2 * (before.length + after.length) = size at total small ⊢
  have filled : (Octets.ofBytes 16 (ungroup before ++
      ungroup after)).bytes = ungroup before ++ ungroup after ++
        List.replicate (16 - size) 0 ++ [] := by
    change List.take 16 _ ++ List.replicate (16 - _) 0 = _
    rw [total, List.take_of_length_le (by omega), List.append_nil]
  have moved := @moveUp_append (16 - size) (by omega) (ungroup before)
    (ungroup after) []
  rw [ocParseIpv6Address, read]
  dsimp only
  rw [total, filled, show size - (ungroup before).length =
    (ungroup after).length by rw [List.length_append] at total; omega,
    moved, List.append_nil]

variable {mixed : Octets 16 → Bool} {address : Octets 16}

theorem ocParseIpv6Address_inetNtop (plain : mixed address = false) :
    ocParseIpv6Address (inetNtop mixed address) = some address := by
  obtain ⟨same, length⟩ := @groups_facts address.bytes
    (by rw [address.length_bytes])
  rw [address.length_bytes] at length
  have whole : Octets.ofBytes 16 (ungroup (groups address.bytes)) =
      address := by
    rw [same, Octets.ofBytes_bytes]
  rw [inetNtop, plain, if_neg Bool.false_ne_true]
  generalize groups address.bytes = parts at length whole
  have run := ungroup_zeroRun parts (longestRun parts)
  rw [compressed]
  generalize longestRun parts = start at run ⊢
  generalize zeroRun parts start = count at run ⊢
  split_ifs with long
  · have lengths := congrArg List.length run
    simp only [List.length_append, length_ungroup, List.length_replicate]
      at lengths
    rw [← List.map_take, ← List.map_drop,
      ocParseIpv6Address_doubled (by omega), ← whole, ← run]
    congr 6
    omega
  · rw [ocParseIpv6Address, ipv6Loop_hexGroups (by simp; omega)]
    simpa using whole

theorem mem_intercalate {separator byte : UInt8} {segments : List Bytes}
    (member : byte ∈ [separator].intercalate segments) :
    byte = separator ∨ ∃ segment ∈ segments, byte ∈ segment := by
  induction segments with
  | nil => simp at member
  | cons segment segments ih =>
      cases segments with
      | nil =>
          rw [List.intercalate_singleton] at member
          exact .inr ⟨segment, List.mem_singleton_self _, member⟩
      | cons next segments =>
          rw [List.intercalate_cons_cons, List.append_assoc,
            List.mem_append, List.mem_append, List.mem_singleton] at member
          rcases member with inside | isSeparator | later
          · exact .inr ⟨segment, List.mem_cons_self .., inside⟩
          · exact .inl isSeparator
          · rcases ih later with isSeparator | ⟨other, among, inside⟩
            · exact .inl isSeparator
            · exact .inr ⟨other, List.mem_cons_of_mem _ among, inside⟩

theorem length_intercalate_le {separator : UInt8} {size : Nat}
    {segments : List Bytes}
    (short : ∀ segment ∈ segments, segment.length ≤ size) :
    ([separator].intercalate segments).length ≤
      (size + 1) * segments.length - 1 := by
  induction segments with
  | nil => simp
  | cons segment segments ih =>
      rw [List.forall_mem_cons] at short
      cases segments with
      | nil =>
          rw [List.intercalate_singleton, List.length_singleton, Nat.mul_one]
          exact short.1
      | cons next segments =>
          have later := ih short.2
          rw [List.intercalate_cons_cons]
          simp only [List.length_append, List.length_cons, List.length_nil,
            Nat.mul_add] at later ⊢
          omega

theorem length_numeral_le {number size : Nat} (positive : 0 < size)
    (small : number < 10 ^ size) : (numeral number).length ≤ size := by
  have own := areDigitsOf_numeral number
  obtain ⟨byte, rest, spelled⟩ := List.exists_cons_of_ne_nil own.nonempty
  by_cases single : rest = []
  · rw [spelled, single, List.length_singleton]
    exact positive
  · have first : 1 ≤ byte.toNat - 48 := by
      have isDigit := own.areDigits byte (by simp [spelled])
      have notZero : byte.toNat ≠ 48 := by
        intro isZero
        have same : byte = 48 := UInt8.toNat_inj.mp isZero
        have alone := (own.first (by rw [spelled, same]; rfl)).2
        rw [spelled] at alone
        exact single (List.cons.inj alone).2
      simp only [IotivityLite.isDigit, Bool.and_eq_true, decide_eq_true_eq,
        UInt8.le_iff_toNat_le, UInt8.reduceToNat] at isDigit
      omega
    have bound := JsonInteger.ofDigits_cons byte rest
    rw [← spelled, own.value] at bound
    have large : 10 ^ rest.length ≤ number :=
      (Nat.le_mul_of_pos_left _ first).trans bound
    have less := (Nat.pow_lt_pow_iff_right (by decide : 1 < 10)).mp
      (large.trans_lt small)
    rw [spelled, List.length_cons]
    exact less

theorem mem_dotted {octets : Bytes} (member : byte ∈ dotted octets) :
    isDigit byte = true ∨ byte = 46 := by
  rcases mem_intercalate member with isDot | ⟨segment, among, inside⟩
  · exact .inr isDot
  · obtain ⟨octet, -, rfl⟩ := List.mem_map.mp among
    exact .inl ((areDigitsOf_numeral octet.toNat).areDigits byte inside)

theorem length_dotted_le (octets : Bytes) :
    (dotted octets).length ≤ 4 * octets.length - 1 := by
  have bound := @length_intercalate_le 46 3
    (octets.map fun octet => numeral octet.toNat) (fun segment among => by
      obtain ⟨octet, -, rfl⟩ := List.mem_map.mp among
      have small := octet.toNat_lt
      exact length_numeral_le (by decide) (by omega))
  rwa [List.length_map] at bound

theorem le_length_dotted (octets : Bytes) :
    2 * octets.length ≤ (dotted octets).length + 1 := by
  induction octets with
  | nil => simp
  | cons octet octets ih =>
      have own := List.length_pos_iff.mpr
        (areDigitsOf_numeral octet.toNat).nonempty
      rw [dotted_cons, List.length_append, List.length_cons, dottedRest]
      split_ifs with last
      · rw [last, List.length_nil]
        omega
      · rw [List.length_cons]
        omega

theorem length_hexGroup_le :
    (hexGroup group).length ≤ 4 := by
  have front := (List.dropWhile_suffix (p := (· = (0 : UInt8)))
    (l := [group.1 / 16, group.1 % 16, group.2 / 16])).length_le
  rw [hexGroup, List.length_map, List.length_append]
  exact Nat.add_le_add_right front 1

theorem length_inetNtop_le {mixed : Octets 16 → Bool}
    (plain : mixed address = false) : (inetNtop mixed address).length ≤ 39 := by
  have even := (@groups_facts address.bytes
    (by rw [address.length_bytes])).2
  rw [address.length_bytes] at even
  rw [inetNtop, plain, if_neg Bool.false_ne_true]
  generalize groups address.bytes = parts at even
  have short : ∀ segment ∈ parts.map hexGroup, segment.length ≤ 4 := by
    intro segment among
    obtain ⟨group, -, rfl⟩ := List.mem_map.mp among
    exact length_hexGroup_le group
  have run := congrArg List.length
    (ungroup_zeroRun parts (longestRun parts))
  simp only [List.length_append, length_ungroup, List.length_replicate]
    at run
  rw [compressed]
  generalize longestRun parts = start at run ⊢
  generalize zeroRun parts start = count at run ⊢
  split_ifs with long
  · have before := @length_intercalate_le 58 4
      ((parts.map hexGroup).take start)
      fun segment among => short segment (List.mem_of_mem_take among)
    have after := @length_intercalate_le 58 4
      ((parts.map hexGroup).drop (start + count))
      fun segment among => short segment (List.mem_of_mem_drop among)
    simp only [List.length_append, List.length_cons, List.length_take,
      List.length_drop, List.length_map] at before after run ⊢
    omega
  · have bound := @length_intercalate_le 58 4 _ short
    rw [List.length_map] at bound
    omega

theorem mem_compressed {segments : List Bytes}
    (member : byte ∈ compressed parts segments) :
    byte = 58 ∨ ∃ segment ∈ segments, byte ∈ segment := by
  rw [compressed] at member
  split_ifs at member with long
  · rw [List.mem_append, List.mem_cons, List.mem_cons] at member
    rcases member with before | colon | colon | after
    · rcases mem_intercalate before with colon | ⟨segment, among, inside⟩
      · exact .inl colon
      · exact .inr ⟨segment, List.mem_of_mem_take among, inside⟩
    · exact .inl colon
    · exact .inl colon
    · rcases mem_intercalate after with colon | ⟨segment, among, inside⟩
      · exact .inl colon
      · exact .inr ⟨segment, List.mem_of_mem_drop among, inside⟩
  · exact mem_intercalate member

theorem isHexDigit_of_isDigit (digit : isDigit byte = true) :
    isHexDigit byte = true := by
  simp only [isDigit, Bool.and_eq_true, decide_eq_true_eq] at digit
  simp [isHexDigit, digit]

theorem mem_inetNtop (member : byte ∈ inetNtop mixed address) :
    isHexDigit byte = true ∨ byte = 46 ∨ byte = 58 := by
  have inGroups : ∀ {parts : List (UInt8 × UInt8)} {segment : Bytes},
      segment ∈ parts.map hexGroup → byte ∈ segment →
        isHexDigit byte = true := by
    intro parts segment among inside
    obtain ⟨group, -, rfl⟩ := List.mem_map.mp among
    exact isHexDigit_hexGroup group byte inside
  rw [inetNtop] at member
  split_ifs at member with embedded
  · rcases mem_compressed member with colon | ⟨segment, among, inside⟩
    · exact .inr (.inr colon)
    · rcases List.mem_append.mp among with front | last
      · exact .inl (inGroups front inside)
      · rw [List.mem_singleton.mp last] at inside
        rcases mem_dotted inside with digit | dot
        · exact .inl (isHexDigit_of_isDigit digit)
        · exact .inr (.inl dot)
  · rcases mem_compressed member with colon | ⟨segment, among, inside⟩
    · exact .inr (.inr colon)
    · exact .inl (inGroups among inside)

theorem ocParseIpv6Address_mixed (embedded : mixed address = true) :
    ocParseIpv6Address (inetNtop mixed address) = none := by
  have quadBytes : (address.bytes.drop 12).length = 4 := by
    rw [List.length_drop, address.length_bytes]
  have tooLong := le_length_dotted (address.bytes.drop 12)
  have clean : 58 ∉ dotted (address.bytes.drop 12) := by
    intro member
    rcases mem_dotted member with digit | dot
    · simp [isDigit] at digit
    · simp at dot
  have sizes := (@groups_facts address.bytes
    (by rw [address.length_bytes])).2
  have six : ((groups address.bytes).take 6).length = 6 := by
    rw [List.length_take]
    rw [address.length_bytes] at sizes
    omega
  rw [inetNtop, embedded, if_pos rfl]
  generalize (groups address.bytes).take 6 = parts at six
  generalize dotted (address.bytes.drop 12) = quad at tooLong clean
  have run := congrArg List.length
    (ungroup_zeroRun parts (longestRun parts))
  simp only [List.length_append, length_ungroup, List.length_replicate]
    at run
  rw [compressed]
  generalize longestRun parts = start at run ⊢
  generalize zeroRun parts start = count at run ⊢
  rw [ocParseIpv6Address]
  split_ifs with long
  · simp only [List.length_take, List.length_drop] at run
    rw [List.take_append_of_le_length (by rw [List.length_map]; omega),
      List.drop_append_of_le_length (by rw [List.length_map]; omega),
      ← List.map_take, ← List.map_drop,
      ipv6Loop_before (by rw [List.length_take]; omega),
      ipv6Loop_long (by
        rw [length_ungroup, List.length_take, List.length_drop]
        omega) clean (by omega)]
  · rw [ipv6Loop_long (by rw [List.length_nil]; omega) clean (by omega)]

/-- The segments of a text that are not empty. -/
def fields (text : Bytes) : List Bytes :=
  (text.splitOn 58).filter (· ≠ [])

/-- Of the eight segments that there is room for, none is too long. -/
def SegmentsFit (text : Bytes) : Prop :=
  ∀ segment ∈ (fields text).take 8, segment.length ≤ 4

theorem fields_colon (text : Bytes) : fields (58 :: text) = fields text := by
  have split : (58 :: text).splitOn 58 = [] :: text.splitOn 58 :=
    List.splitOn_append_cons_self_of_not_mem
      (List.not_mem_nil : (58 : UInt8) ∉ []) text
  rw [fields, split, List.filter_cons_of_neg (by simp), fields]

theorem fields_segment {segment rest : Bytes} (nonempty : segment ≠ [])
    (clean : 58 ∉ segment) (ends : EndsSegment rest) :
    fields (segment ++ rest) = segment :: fields rest := by
  cases rest with
  | nil =>
      rw [List.append_nil, fields, List.splitOn_eq_singleton clean,
        List.filter_cons_of_pos (by simpa using nonempty)]
      rfl
  | cons byte rest =>
      rw [ends byte rfl, fields_colon, fields,
        List.splitOn_append_cons_self_of_not_mem clean,
        List.filter_cons_of_pos (by simpa using nonempty), fields]

theorem fields_skipDoubled (split : Option Nat) (text : Bytes) :
    fields (skipDoubled split text) = fields text := by
  unfold skipDoubled
  split_ifs with doubled
  · obtain ⟨rest, rfl⟩ : ∃ rest, text = 58 :: 58 :: rest := by
      refine ⟨text.drop 2, ?_⟩
      rw [← List.take_append_drop 2 text, doubled.2]
      rfl
    rw [fields_colon, fields_colon]
    rfl
  · rfl

theorem exists_before (separator : UInt8) (text : Bytes) :
    ∃ front back, text = front ++ back ∧ separator ∉ front ∧
      ∀ byte ∈ back.head?, byte = separator := by
  refine ⟨text.takeWhile (· ≠ separator), text.dropWhile (· ≠ separator),
    List.takeWhile_append_dropWhile.symm, ?_, ?_⟩
  · intro member
    simpa using List.mem_takeWhile_imp member
  · intro byte first
    have stop := List.head?_dropWhile_not (p := (· ≠ separator)) text
    rw [Option.mem_def.mp first] at stop
    simpa using stop

theorem readSegment_cases (text : Bytes) :
    (∃ rest, readSegment text = some ([], rest) ∧
      fields rest = fields text) ∨
    (∃ segment bytes rest, readSegment text = some (bytes, rest) ∧
      bytes.length = 2 ∧ segment.length ≤ 4 ∧
        fields text = segment :: fields rest) ∨
    (readSegment text = none ∧ ∃ segment rest,
      4 < segment.length ∧ fields text = segment :: fields rest) := by
  obtain ⟨segment, rest, rfl, clean, ends⟩ := exists_before 58 text
  have taken := takeWhile_segment clean ends
  rw [readSegment, taken]
  by_cases empty : segment = []
  · left
    subst empty
    refine ⟨rest.drop 1, rfl, ?_⟩
    cases rest with
    | nil => rfl
    | cons byte rest =>
        rw [ends byte rfl, List.nil_append, fields_colon]
        rfl
  · have parts := fields_segment empty clean ends
    by_cases long : 4 < segment.length
    · refine .inr (.inr ⟨?_, segment, rest, long, parts⟩)
      split
      all_goals first
        | omega
        | rfl
    · right; left
      have behind : (segment ++ rest).drop segment.length = rest :=
        List.drop_left
      have positive := List.length_pos_iff.mpr empty
      have sizes : segment.length = 1 ∨ segment.length = 2 ∨
          segment.length = 3 ∨ segment.length = 4 := by omega
      rcases sizes with size | size | size | size
      all_goals
        rw [size] at behind ⊢
        refine ⟨segment, _, _, rfl, rfl, by omega, ?_⟩
        rw [behind, parts]

theorem ipv6Loop_isSome_iff {text addr : Bytes} {split : Option Nat}
    (even : addr.length % 2 = 0) :
    (ipv6Loop text addr split).isSome = true ↔
      ∀ segment ∈ (fields text).take ((16 - addr.length) / 2),
        segment.length ≤ 4 := by
  induction text, addr, split using ipv6Loop.induct with
  | case1 text addr split more long =>
      rw [ipv6Loop_reject more.1 more.2 long]
      obtain ⟨_, present, -⟩ | ⟨_, _, _, present, -⟩ |
        ⟨-, segment, rest, tooLong, parts⟩ :=
          readSegment_cases (skipDoubled split text)
      · rw [long] at present
        cases present
      · rw [long] at present
        cases present
      · rw [fields_skipDoubled] at parts
        obtain ⟨room, positive⟩ := Nat.exists_eq_succ_of_ne_zero
          (show (16 - addr.length) / 2 ≠ 0 by omega)
        rw [parts, positive, List.take_succ_cons, List.forall_mem_cons]
        simp only [Option.isSome_none, Bool.false_eq_true, false_iff]
        omega
  | case2 text addr split more bytes rest read ih =>
      rw [ipv6Loop_step more.1 more.2 read]
      obtain ⟨_, present, same⟩ | ⟨segment, _, _, present, two, short,
        parts⟩ | ⟨absent, -⟩ := readSegment_cases (skipDoubled split text)
      · obtain ⟨rfl, rfl⟩ := Prod.mk.inj
          (Option.some.inj (read.symm.trans present))
        rw [List.append_nil] at ih ⊢
        rw [ih even, same, fields_skipDoubled]
      · obtain ⟨rfl, rfl⟩ := Prod.mk.inj
          (Option.some.inj (read.symm.trans present))
        rw [fields_skipDoubled] at parts
        have longer : (addr ++ bytes).length = addr.length + 2 := by
          rw [List.length_append, two]
        have room : (16 - addr.length) / 2 =
            (16 - (addr.length + 2)) / 2 + 1 := by omega
        rw [ih (by omega), longer, parts, room, List.take_succ_cons,
          List.forall_mem_cons]
        exact (and_iff_right short).symm
      · rw [read] at absent
        cases absent
  | case3 text addr split done =>
      have nothing : (fields text).take ((16 - addr.length) / 2) = [] := by
        by_cases more : text = []
        · have empty : fields [] = [] := rfl
          rw [more, empty, List.take_nil]
        · have full : (16 - addr.length) / 2 = 0 := by
            have stop : ¬ addr.length < 15 := fun room => done ⟨room, more⟩
            omega
          rw [full, List.take_zero]
      rw [ipv6Loop, dif_neg done, nothing]
      simp

theorem ocParseIpv6Address_isSome_iff (address : Bytes) :
    (ocParseIpv6Address address).isSome = true ↔ SegmentsFit address := by
  have loop := @ipv6Loop_isSome_iff address [] none rfl
  rw [SegmentsFit, ← show (16 - ([] : Bytes).length) / 2 = 8 from rfl,
    ← loop, ocParseIpv6Address]
  cases ipv6Loop address [] none with
  | none => rfl
  | some result =>
      obtain ⟨addr, split⟩ := result
      cases split <;> rfl

end AddressText

end IotivityLite
