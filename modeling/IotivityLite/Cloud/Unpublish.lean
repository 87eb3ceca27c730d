import IotivityLite.Coap.OptionList
import IotivityLite.Foundation.LongestPrefix
import IotivityLite.Json.Encoding

/-!
# Requests that unpublish links

`rd_delete_fill_and_send_single_packet` of `rd_client.c`.  The query of a
request names as many links as fit into its buffer and its packet; the list of
links is cut behind them, and the next request names the others.
-/

namespace IotivityLite

/-- A pointer that moves through a buffer, and the total of the lengths. -/
structure Printer where
  passed : Bytes
  rest : Bytes
  total : UInt64

/-- What `snprintf` leaves behind the pointer. -/
def snprintf (text rest : Bytes) : Bytes :=
  if rest = [] then []
  else
    text.take (rest.length - 1) ++
      0 :: rest.drop ((text.take (rest.length - 1)).length + 1)

section Printing

-- the pointer into the buffer is null
variable (null : Bool)

/-- `oc_buffer_write`; the result is whether it is not negative. -/
def ocBufferWrite (text : Bytes) (buffer : Printer) : Bool × Printer :=
  let total := buffer.total + .ofNat text.length
  if null then (true, { buffer with total })
  else
    let rest := snprintf text buffer.rest
    if buffer.rest.length ≤ text.length then
      (false, { passed := buffer.passed ++ rest, rest := [], total })
    else
      (true,
        { passed := buffer.passed ++ rest.take text.length
          rest := rest.drop text.length
          total })

end Printing

theorem snprintf_of_lt {text rest : Bytes} (room : text.length < rest.length) :
    snprintf text rest = text ++ 0 :: rest.drop (text.length + 1) := by
  have some_rest : rest ≠ [] := by
    rintro rfl
    cases room
  have whole : text.take (rest.length - 1) = text :=
    List.take_of_length_le (by omega)
  rw [snprintf, if_neg some_rest, whole]

/-- What a request depends on besides the links.  `maxHeaderSize` is
`COAP_MAX_HEADER_SIZE`, `tcp` the flag of the endpoint, `buffer` what the
buffer held before. -/
structure RdDeleteSetup where
  config : CoapConfig
  maxHeaderSize : Nat
  tcp : Bool
  id : Bytes
  buffer : Bytes
  sized : buffer.length < 2 ^ 64

/-- `someDeleted` is `RD_DELETE_PARTIAL`. -/
inductive RdDeleteResult where
  | error
  | all
  | someDeleted
  deriving DecidableEq, Repr

/-- `links` is the list that the pointer to the first link leads to afterwards,
`queries` are those handed to the callback; the partition consists of
`deleted` and `not_deleted`. -/
structure RdDeleteOutcome (Link : Type) where
  result : RdDeleteResult
  queries : List CString
  partition : Option (List Link × List Link)
  links : List Link

section Packet

variable (setup : RdDeleteSetup)

/-- `OC_RSRVD_RD_URI` -/
def ocRsrvdRdUri : Bytes := ascii "/oic/rd"

/-- `rd_delete_packet` with `oc_request_init_packet` and
`oc_request_set_packet_options`; the code is `OC_DELETE`. -/
def rdDeletePacket : OutPacket :=
  coapOptionsSetUriPath
    (coapOptionsSetAccept
      (if setup.config.ocTcp && setup.tcp then coapTcpInitMessage 4
        else coapUdpInitMessage .non 4 0)
      OcContentFormat.applicationVndOcfCbor)
    ⟨ocRsrvdRdUri, []⟩

/-- `coap_check_header_size` without a buffer size. -/
def rdDeleteCheckPacketSize (query : CString) : Bool :=
  (coapCalculateHeaderSize setup.config
    (coapOptionsSetUriQuery (rdDeletePacket setup) query) true true false
    coapTokenLen).size ≤ setup.maxHeaderSize

end Packet

section Model

variable {Link : Type} (ins : Link → Int64) (setup : RdDeleteSetup)
  (onPacketReady : CString → Bool)

/-- `rd_prepare_write_buffer` -/
def rdPrepareWriteBuffer : Option Printer :=
  if setup.buffer.length ≤ 3 + setup.id.length then none
  else some
    { passed := ascii "di=" ++ setup.id
      rest := setup.buffer.drop (3 + setup.id.length)
      total := .ofNat (3 + setup.id.length) }

/-- `rd_partition_links` after a query was handed over; the link in front of
the cut is the last one of `sent`. -/
def rdPartitionLinks (sent rest : List Link) (query : CString) :
    RdDeleteOutcome Link :=
  if sent = [] then ⟨.error, [query], none, sent ++ rest⟩
  else
    ⟨if rest = [] then .all else .someDeleted, [query], some (sent, rest),
      sent⟩

/-- The buffer is ended behind `written` and handed over. -/
def rdDeleteSend (sent rest : List Link) (content : Bytes) (written : Nat) :
    RdDeleteOutcome Link :=
  let content := content.set written 0
  let query : CString := ⟨content.take written, content.drop written⟩
  if !onPacketReady query then ⟨.error, [query], none, sent ++ rest⟩
  else rdPartitionLinks sent rest query

/-- The text added for a link. -/
def insText (link : Link) : Bytes := ascii "&ins=" ++ decimal (ins link).toInt

/-- The loop over the links. -/
def rdDeleteLoop : (sent rest : List Link) → Printer → RdDeleteOutcome Link
  | sent, [], wb =>
      rdDeleteSend onPacketReady sent [] (wb.passed ++ wb.rest) wb.total.toNat
  | sent, link :: rest, wb =>
      let written := wb.total.toNat
      let (ok, wb) := ocBufferWrite false (insText ins link) wb
      let content := wb.passed ++ wb.rest
      let total := wb.total.toNat
      let packetFull := ok && !rdDeleteCheckPacketSize setup
        ⟨content.take total, content.drop total⟩
      if !ok || packetFull then
        rdDeleteSend onPacketReady sent (link :: rest) content written
      else rdDeleteLoop (sent ++ [link]) rest wb

/-- `rd_delete_fill_and_send_single_packet` -/
def rdDeleteFillAndSendSinglePacket (links : List Link) :
    RdDeleteOutcome Link :=
  match rdPrepareWriteBuffer setup with
  | none => ⟨.error, [], none, links⟩
  | some wb => rdDeleteLoop ins setup onPacketReady [] links wb

/-- The next calls for the links that were not deleted; `ready` tells what the
callback answers in which call.  `none` when more calls would be needed. -/
def rdDeleteRepeat (ready : Nat → CString → Bool) :
    (fuel call : Nat) → List Link → List CString × Option RdDeleteResult
  | 0, _, _ => ([], none)
  | fuel + 1, call, links =>
      let outcome := rdDeleteFillAndSendSinglePacket ins setup (ready call) links
      match outcome.partition with
      | some (_, first :: rest) =>
          let later := rdDeleteRepeat ready fuel (call + 1) (first :: rest)
          (outcome.queries ++ later.1, later.2)
      | _ => (outcome.queries, some outcome.result)

/-- `di=<id>` followed by `&ins=<n>` for every link -/
def unpublishQuery (id : Bytes) (links : List Link) : Bytes :=
  ascii "di=" ++ id ++ links.flatMap (insText ins)

/-- The query and its end fit into the buffer, and it into the packet. -/
def UnpublishFits (links : List Link) : Prop :=
  (unpublishQuery ins setup.id links).length < setup.buffer.length ∧
    rdDeleteCheckPacketSize setup ⟨unpublishQuery ins setup.id links, []⟩ = true

instance : DecidablePred (UnpublishFits ins setup) :=
  fun _ => inferInstanceAs (Decidable (_ ∧ _))

/-- An error leaves the links as they were, and without an error the one query
names the longest group of links at the beginning that fits; none is handed
over when no group fits.  Repeated calls come to an end, and without an error
they name every link once. -/
structure Unpublishes (links : List Link) : Prop where
  unmodified : ∀ outcome, outcome =
      rdDeleteFillAndSendSinglePacket ins setup onPacketReady links →
    outcome.result = .error →
      outcome.links = links ∧ outcome.partition = none
  nothing : (∀ group, group <+: links → group ≠ [] →
      ¬UnpublishFits ins setup group) →
    (rdDeleteFillAndSendSinglePacket ins setup onPacketReady links).queries =
      []
  handed : ∀ outcome, outcome =
      rdDeleteFillAndSendSinglePacket ins setup onPacketReady links →
    outcome.result ≠ .error →
      ∃ query deleted rest, outcome.queries = [query] ∧
        query.bytes = unpublishQuery ins setup.id deleted ∧
        deleted ++ rest = links ∧
        LongestPrefix (UnpublishFits ins setup) deleted links ∧
        outcome.partition = some (deleted, rest) ∧
        outcome.result = if rest = [] then .all else .someDeleted
  repeated : ∀ ready, ∃ queries result,
    rdDeleteRepeat ins setup ready links.length 0 links =
        (queries, some result) ∧
      (result = .error ∨ result = .all ∧ ∃ groups : List (List Link),
        groups.flatten = links ∧ (∀ group ∈ groups, group ≠ []) ∧
          queries.map CString.bytes =
            groups.map (unpublishQuery ins setup.id))
  allDeleted : ∀ ready, (∀ call query, ready call query = true) →
    (∀ link ∈ links, UnpublishFits ins setup [link]) →
      (rdDeleteRepeat ins setup ready links.length 0 links).2 = some .all

end Model

theorem textParts_append {separator : UInt8} (part text : Bytes)
    (inside : EndsInside separator text) (next : UInt8) (more : Bytes) :
    textParts separator part (text ++ separator :: next :: more) =
      textParts separator part text ++ textParts separator [next] more := by
  fun_induction textParts separator part text
  case case1 part => simp [textParts]
  case case2 part => exact absurd rfl inside
  case case3 part byte other => simp [textParts, other]
  case case4 part head rest ih =>
    rw [List.cons_append, List.cons_append, textParts, if_pos rfl,
      ih inside.tail_tail, List.cons_append]
  case case5 part byte head rest other ih =>
    rw [List.cons_append, List.cons_append, textParts, if_neg other,
      ← List.cons_append, ih inside.tail]

section Size

variable (setup : RdDeleteSetup)

/-- The packet with a query. -/
abbrev queryPacket (query : CString) : OutPacket :=
  coapOptionsSetUriQuery (rdDeletePacket setup) query

section

variable (query : CString)

include query

theorem isOption_queryPacket {number : Nat} (small : number < 64) :
    (queryPacket setup query).isOption number =
      decide (number = 17 ∨ number = 11 ∨ number = 15) := by
  unfold queryPacket coapOptionsSetUriQuery rdDeletePacket
    coapOptionsSetUriPath coapOptionsSetAccept
  rw [CoapPacket.isOption_setOption]
  change (CoapPacket.isOption (CoapPacket.setOption _ _) _ || _) = _
  rw [CoapPacket.isOption_setOption]
  change (CoapPacket.isOption (CoapPacket.setOption _ _) _ || _ || _) = _
  rw [CoapPacket.isOption_setOption]
  rw [CoapPacket.isOption]
  simp only [small]
  split_ifs
  all_goals
    simp [coapTcpInitMessage, coapUdpInitMessage, CoapPacket.zero,
      Bool.or_assoc, eq_comm]

theorem code_queryPacket : (queryPacket setup query).code = 4 := by
  unfold queryPacket coapOptionsSetUriQuery rdDeletePacket
    coapOptionsSetUriPath coapOptionsSetAccept
  split_ifs
  all_goals rfl

theorem accept_queryPacket : (queryPacket setup query).accept = 10000 := by
  unfold queryPacket coapOptionsSetUriQuery rdDeletePacket
    coapOptionsSetUriPath coapOptionsSetAccept
  split_ifs
  all_goals rfl

theorem payload_queryPacket : (queryPacket setup query).payload.bytes = [] := by
  unfold queryPacket coapOptionsSetUriQuery rdDeletePacket
    coapOptionsSetUriPath coapOptionsSetAccept
  split_ifs
  all_goals rfl

theorem uriPath_queryPacket :
    (queryPacket setup query).uriPath = ⟨ascii "oic/rd", []⟩ := by
  unfold queryPacket coapOptionsSetUriQuery rdDeletePacket
    coapOptionsSetUriPath coapOptionsSetAccept
  split_ifs
  all_goals rfl

theorem rawOption_queryPacket {number : Nat} (small : number < 64)
    (values : List Bytes) :
    (queryPacket setup query).rawOption number values =
      if number = 17 ∨ number = 11 ∨ number = 15 then
        values.map (RawOption.mk number)
      else [] := by
  rw [CoapPacket.rawOption, isOption_queryPacket setup query small]
  simp only [decide_eq_true_eq]

end

/-- The options in front of the query and behind it. -/
def optionsBefore : List RawOption :=
  (textParts 47 [] (ascii "oic/rd")).map (RawOption.mk CoapOption.uriPath)

def optionsBehind : List RawOption :=
  ⟨CoapOption.accept, intOptionBytes 10000⟩ ::
    (versionValues setup.config 10000).map
      (RawOption.mk CoapOption.ocfAcceptContentFormatVer)

theorem rawOptions_queryPacket (query : CString) :
    rawOptions setup.config (queryPacket setup query) =
      optionsBefore ++
        ((textParts 38 [] (query.bytes.dropWhile (· == 63))).map
          (RawOption.mk CoapOption.uriQuery) ++ optionsBehind setup) := by
  have accepts : (queryPacket setup query).isOption CoapOption.accept = true :=
    isOption_queryPacket setup query (by decide)
  have plain : (queryPacket setup query).isOption CoapOption.contentFormat =
      false :=
    isOption_queryPacket setup query (by decide)
  simp only [rawOptions, baseOptions, versionOptions, accepts, plain, if_true,
    Bool.false_eq_true, if_false, List.append_nil]
  simp (disch := decide) only [rawOption_queryPacket]
  rw [uriPath_queryPacket, accept_queryPacket]
  simp [optionsBefore, optionsBehind]
  rfl

/-- The bytes of a message with so many bytes of options. -/
def deleteMessageSize (options : Nat) : Nat :=
  options + coapTokenLen +
    (if setup.config.ocTcp ∧ setup.tcp then
      2 + if options < 13 then 0 else if options < 269 then 1
        else if options < 65805 then 2 else 4
    else 4)

theorem deleteMessageSize_mono {fewer more : Nat} (le : fewer ≤ more) :
    deleteMessageSize setup fewer ≤ deleteMessageSize setup more := by
  unfold deleteMessageSize
  split_ifs
  all_goals omega

theorem transportType_queryPacket (query : CString) :
    (queryPacket setup query).transportType =
      if setup.config.ocTcp && setup.tcp then .tcp else .udp := by
  unfold queryPacket coapOptionsSetUriQuery rdDeletePacket
    coapOptionsSetUriPath coapOptionsSetAccept
  split_ifs
  all_goals rfl

theorem rdDeleteCheckPacketSize_eq {query : CString}
    (inside : EndsInside 38 (query.bytes.dropWhile (· == 63))) :
    rdDeleteCheckPacketSize setup query =
      decide (deleteMessageSize setup (encodeOptions 0 (optionsBefore ++
        ((textParts 38 [] (query.bytes.dropWhile (· == 63))).map
          (RawOption.mk CoapOption.uriQuery) ++ optionsBehind setup))).length ≤
            setup.maxHeaderSize) := by
  have plain : NoSignal setup.config (queryPacket setup query).code := by
    rw [NoSignal, code_queryPacket]
    cases setup.config.ocTcp
    all_goals rfl
  have options := @coapSerializeOptions_eq setup.config
    (queryPacket setup query) false plain
    (fun _ formatted => by
      rw [isOption_queryPacket setup query (by decide)] at formatted
      exact absurd formatted (by decide))
    ⟨fun _ => by
      rw [uriPath_queryPacket]
      decide, fun _ => inside⟩
  rw [rdDeleteCheckPacketSize, coapCalculateHeaderSize, options,
    rawOptions_queryPacket, Chunk.size_emit]
  simp only [transportType_queryPacket, coapTcpComputeMessageLength,
    payload_queryPacket]
  generalize (encodeOptions 0 _).length = size
  unfold deleteMessageSize
  cases setup.config.ocTcp
  · simp
  · cases setup.tcp
    · simp
    · simp only [Bool.and_self, if_true, and_self, Bool.not_true,
        Bool.false_eq_true, if_false, List.length_nil, gt_iff_lt,
        Nat.lt_irrefl]
      split_ifs
      all_goals rfl

theorem length_encodeOptions_insert (current number : Nat)
    (before behind : List RawOption) {values : List Bytes} (more : List Bytes)
    (some : values ≠ []) :
    (encodeOptions current (before ++
        (values.map (RawOption.mk number) ++ behind))).length ≤
      (encodeOptions current (before ++
        ((values ++ more).map (RawOption.mk number) ++ behind))).length := by
  have all := List.append_ne_nil_of_left_ne_nil some more
  rw [encodeOptions_append, encodeOptions_append, encodeOptions_append,
    encodeOptions_append, lastNumber_map _ _ _ some, lastNumber_map _ _ _ all,
    List.map_append, encodeOptions_append]
  simp only [List.length_append]
  omega

end Size
section Queries

variable {Link : Type} (ins : Link → Int64) (setup : RdDeleteSetup)

theorem decimal_concat (number : Int) :
    ∃ digits, decimal number =
      digits ++ [(48 + number.natAbs % 10).toUInt8] :=
  ⟨_, (List.append_assoc _ _ _).symm⟩

theorem unpublishQuery_append (id : Bytes) (group more : List Link) :
    unpublishQuery ins id (group ++ more) =
      unpublishQuery ins id group ++ more.flatMap (insText ins) := by
  rw [unpublishQuery, List.flatMap_append, ← List.append_assoc]
  rfl

theorem endsInside_unpublishQuery (id : Bytes) {group : List Link}
    (some : group ≠ []) : EndsInside 38 (unpublishQuery ins id group) := by
  obtain ⟨front, last, rfl⟩ := List.eq_nil_or_concat group |>.resolve_left some
  obtain ⟨digits, ends⟩ := decimal_concat (ins last).toInt
  rw [List.concat_eq_append, unpublishQuery_append, List.flatMap_singleton,
    insText, ends, EndsInside, ← List.append_assoc, ← List.append_assoc,
    List.getLast?_concat]
  intro same
  have digit := congrArg UInt8.toNat (Option.some.inj same)
  have small : 48 + (ins last).toInt.natAbs % 10 < 2 ^ 8 := by omega
  rw [Nat.toUInt8, UInt8.toNat_ofNat', Nat.mod_eq_of_lt small] at digit
  change 48 + (ins last).toInt.natAbs % 10 = 38 at digit
  omega

theorem dropWhile_unpublishQuery (id : Bytes) (group : List Link) :
    (unpublishQuery ins id group).dropWhile (· == 63) =
      unpublishQuery ins id group :=
  rfl

theorem rdDeleteCheckPacketSize_beyond (beyond : Bytes) {group : List Link}
    (some : group ≠ []) :
    rdDeleteCheckPacketSize setup
        ⟨unpublishQuery ins setup.id group, beyond⟩ =
      rdDeleteCheckPacketSize setup ⟨unpublishQuery ins setup.id group, []⟩ := by
  have inside := endsInside_unpublishQuery ins setup.id some
  rw [rdDeleteCheckPacketSize_eq setup (by exact inside),
    rdDeleteCheckPacketSize_eq setup (by exact inside)]

theorem unpublishFits_closed (group more : List Link) (some : group ≠ [])
    (fits : UnpublishFits ins setup (group ++ more)) :
    UnpublishFits ins setup group := by
  cases more with
  | nil =>
      rw [List.append_nil] at fits
      exact fits
  | cons link more =>
      obtain ⟨room, checked⟩ := fits
      have inside := endsInside_unpublishQuery ins setup.id some
      have insideMore := endsInside_unpublishQuery ins setup.id
        (List.append_ne_nil_of_left_ne_nil some (link :: more))
      obtain ⟨rest, text⟩ : ∃ rest, (link :: more).flatMap (insText ins) =
          38 :: 105 :: rest := ⟨_, rfl⟩
      rw [unpublishQuery_append, text] at room insideMore checked
      refine ⟨?_, ?_⟩
      · rw [List.length_append] at room
        omega
      · rw [rdDeleteCheckPacketSize_eq setup (by exact insideMore),
          decide_eq_true_iff] at checked
        rw [rdDeleteCheckPacketSize_eq setup (by exact inside),
          decide_eq_true_iff]
        have parts := textParts_append [] (unpublishQuery ins setup.id group)
          inside 105 rest
        refine (deleteMessageSize_mono setup ?_).trans checked
        rw [dropWhile_unpublishQuery]
        change _ ≤ (encodeOptions 0 (optionsBefore ++ ((textParts 38 []
          (unpublishQuery ins setup.id group ++ 38 :: 105 :: rest)).map
            (RawOption.mk CoapOption.uriQuery) ++ optionsBehind setup))).length
        rw [parts]
        exact length_encodeOptions_insert _ _ _ _ _
          (textParts_ne_nil _ _ _)

end Queries

section Call

variable {Link : Type} {ins : Link → Int64} {setup : RdDeleteSetup}
  {onPacketReady : CString → Bool} {links sent rest : List Link}
  {wb : Printer}

/-- The links of `sent` were written. -/
structure WroteLinks (ins : Link → Int64) (setup : RdDeleteSetup)
    (sent : List Link) (wb : Printer) : Prop where
  passed : wb.passed = unpublishQuery ins setup.id sent
  total : wb.total.toNat = wb.passed.length
  size : wb.passed.length + wb.rest.length = setup.buffer.length
  room : 0 < wb.rest.length

/-- What is handed over and returned when exactly the links of `sent` were
written. -/
structure SendsLinks (ins : Link → Int64) (setup : RdDeleteSetup)
    (onPacketReady : CString → Bool) (sent rest : List Link)
    (outcome : RdDeleteOutcome Link) : Prop where
  sends : ∃ query, query.bytes = unpublishQuery ins setup.id sent ∧
    outcome = if !onPacketReady query then
        ⟨.error, [query], none, sent ++ rest⟩
      else rdPartitionLinks sent rest query

theorem rdDeleteSend_sends {content behind : Bytes} {written : Nat}
    (text : content = unpublishQuery ins setup.id sent ++ behind)
    (length : written = (unpublishQuery ins setup.id sent).length) :
    SendsLinks ins setup onPacketReady sent rest
      (rdDeleteSend onPacketReady sent rest content written) := by
  refine ⟨⟨(content.set written 0).take written,
    (content.set written 0).drop written⟩, ?_, rfl⟩
  subst text length
  simp only
  rw [List.take_set_of_le (Nat.le_refl _), List.take_left]

theorem wroteLinks_start (small : 3 + setup.id.length < setup.buffer.length) :
    WroteLinks ins setup [] ⟨ascii "di=" ++ setup.id,
      setup.buffer.drop (3 + setup.id.length),
      .ofNat (3 + setup.id.length)⟩ := by
  have sized := setup.sized
  have length : (ascii "di=" ++ setup.id).length = 3 + setup.id.length :=
    List.length_append
  refine ⟨(List.append_nil _).symm, ?_, ?_, ?_⟩
  · rw [length]
    exact UInt64.toNat_ofNat_of_lt (by
      change _ < 2 ^ 64
      omega)
  · rw [length, List.length_drop]
    omega
  · rw [List.length_drop]
    omega

theorem WroteLinks.write (wrote : WroteLinks ins setup sent wb) {link : Link}
    (fits : (insText ins link).length < wb.rest.length) :
    ∃ after, ocBufferWrite false (insText ins link) wb = (true, after) ∧
      WroteLinks ins setup (sent ++ [link]) after := by
  have sized := setup.sized
  obtain ⟨passed, total, size, room⟩ := wrote
  rw [ocBufferWrite, if_neg Bool.false_ne_true, snprintf_of_lt fits,
    if_neg (Nat.not_le.mpr fits)]
  refine ⟨_, rfl, ?_, ?_, ?_, ?_⟩
  · simp only
    rw [List.take_left, passed, unpublishQuery_append, List.flatMap_singleton]
  · simp only
    rw [List.take_left, UInt64.toNat_add, total, UInt64.toNat_ofNat',
      Nat.mod_eq_of_lt (by omega), Nat.mod_eq_of_lt (by omega),
      List.length_append]
  · simp only
    rw [List.take_left, List.drop_left, List.length_append, List.length_cons,
      List.length_drop]
    omega
  · simp

theorem WroteLinks.overflow (wrote : WroteLinks ins setup sent wb)
    {link : Link} (full : wb.rest.length ≤ (insText ins link).length) :
    ∃ after behind, ocBufferWrite false (insText ins link) wb =
        (false, after) ∧
      after.passed ++ after.rest =
        unpublishQuery ins setup.id sent ++ behind := by
  rw [ocBufferWrite, if_neg Bool.false_ne_true, if_pos full]
  refine ⟨_, snprintf (insText ins link) wb.rest, rfl, ?_⟩
  simp only
  rw [wrote.passed, List.append_nil]

theorem rdDeleteLoop_sends (wrote : WroteLinks ins setup sent wb) :
    SendsLinks ins setup onPacketReady
      (splitWhileFits (UnpublishFits ins setup) sent rest).1
      (splitWhileFits (UnpublishFits ins setup) sent rest).2
      (rdDeleteLoop ins setup onPacketReady sent rest wb) := by
  induction rest generalizing sent wb with
  | nil =>
      exact rdDeleteSend_sends (congrArg (· ++ wb.rest) wrote.passed)
        (wrote.total.trans (congrArg List.length wrote.passed))
  | cons link rest ih =>
      have written : wb.total.toNat =
          (unpublishQuery ins setup.id sent).length := by
        rw [wrote.total, wrote.passed]
      rw [rdDeleteLoop, splitWhileFits]
      by_cases fits : (insText ins link).length < wb.rest.length
      · obtain ⟨after, write, wroteAfter⟩ := wrote.write fits
        have query : (after.passed ++ after.rest).take after.total.toNat =
            unpublishQuery ins setup.id (sent ++ [link]) := by
          rw [wroteAfter.total, List.take_left, wroteAfter.passed]
        have room : (unpublishQuery ins setup.id (sent ++ [link])).length <
            setup.buffer.length := by
          have size := wroteAfter.size
          have some := wroteAfter.room
          rw [wroteAfter.passed] at size
          omega
        rw [write]
        simp only [Bool.not_true, Bool.false_or, Bool.true_and, query]
        rw [rdDeleteCheckPacketSize_beyond ins setup _ (by simp)]
        by_cases checked : rdDeleteCheckPacketSize setup
            ⟨unpublishQuery ins setup.id (sent ++ [link]), []⟩ = true
        · rw [if_pos ⟨room, checked⟩, checked]
          exact ih wroteAfter
        · rw [if_neg fun both => checked both.2,
            Bool.eq_false_iff.mpr checked]
          have content : after.passed ++ after.rest =
              unpublishQuery ins setup.id sent ++
                ([link].flatMap (insText ins) ++ after.rest) := by
            rw [wroteAfter.passed, unpublishQuery_append, List.append_assoc]
          exact rdDeleteSend_sends content written
      · obtain ⟨after, behind, write, content⟩ :=
          wrote.overflow (Nat.not_lt.mp fits)
        have full : ¬UnpublishFits ins setup (sent ++ [link]) := by
          rintro ⟨room, -⟩
          have size := wrote.size
          rw [wrote.passed] at size
          rw [unpublishQuery_append, List.flatMap_singleton,
            List.length_append] at room
          omega
        rw [write, if_neg full]
        exact rdDeleteSend_sends content written

theorem UnpublishFits.size {group : List Link}
    (fits : UnpublishFits ins setup group) :
    3 + setup.id.length < setup.buffer.length := by
  have room := fits.1
  have start : (ascii "di=" ++ setup.id).length = 3 + setup.id.length :=
    List.length_append
  rw [unpublishQuery, List.length_append, start] at room
  omega

theorem fillAndSend_cases (links : List Link) :
    setup.buffer.length ≤ 3 + setup.id.length ∧
        rdDeleteFillAndSendSinglePacket ins setup onPacketReady links =
          ⟨.error, [], none, links⟩ ∨
      3 + setup.id.length < setup.buffer.length ∧
        SendsLinks ins setup onPacketReady
          (splitWhileFits (UnpublishFits ins setup) [] links).1
          (splitWhileFits (UnpublishFits ins setup) [] links).2
          (rdDeleteFillAndSendSinglePacket ins setup onPacketReady links) := by
  unfold rdDeleteFillAndSendSinglePacket rdPrepareWriteBuffer
  by_cases small : setup.buffer.length ≤ 3 + setup.id.length
  · rw [if_pos small]
    exact .inl ⟨small, rfl⟩
  · rw [if_neg small]
    have room := Nat.not_le.mp small
    exact .inr ⟨room, rdDeleteLoop_sends (wroteLinks_start room)⟩

variable {outcome : RdDeleteOutcome Link}

section

variable (sends : SendsLinks ins setup onPacketReady sent rest outcome)

include sends

theorem SendsLinks.error (failed : outcome.result = .error) :
    outcome.links = sent ++ rest ∧ outcome.partition = none := by
  obtain ⟨query, -, rfl⟩ := sends.sends
  by_cases refused : (!onPacketReady query) = true
  · rw [if_pos refused]
    exact ⟨rfl, rfl⟩
  · rw [if_neg refused] at failed ⊢
    unfold rdPartitionLinks at failed ⊢
    by_cases none : sent = []
    · rw [if_pos none]
      exact ⟨rfl, rfl⟩
    · rw [if_neg none] at failed
      by_cases all : rest = []
      · rw [if_pos all] at failed
        cases failed
      · rw [if_neg all] at failed
        cases failed

theorem SendsLinks.success (succeeded : outcome.result ≠ .error) :
    sent ≠ [] ∧ ∃ query, outcome.queries = [query] ∧
      query.bytes = unpublishQuery ins setup.id sent ∧
      outcome.partition = some (sent, rest) ∧
      outcome.result = if rest = [] then .all else .someDeleted := by
  obtain ⟨query, text, rfl⟩ := sends.sends
  by_cases refused : (!onPacketReady query) = true
  · rw [if_pos refused] at succeeded
    exact absurd rfl succeeded
  · rw [if_neg refused] at succeeded ⊢
    unfold rdPartitionLinks at succeeded ⊢
    by_cases none : sent = []
    · rw [if_pos none] at succeeded
      exact absurd rfl succeeded
    · rw [if_neg none]
      exact ⟨none, query, rfl, text, rfl, rfl⟩

theorem SendsLinks.accepted (accepts : ∀ query, onPacketReady query = true)
    (some : sent ≠ []) : outcome.result ≠ .error := by
  obtain ⟨query, -, rfl⟩ := sends.sends
  unfold rdPartitionLinks
  rw [accepts, if_neg (by decide), if_neg some]
  split_ifs
  all_goals
    intro same
    cases same

theorem SendsLinks.queries_ne_nil : outcome.queries ≠ [] := by
  obtain ⟨query, -, rfl⟩ := sends.sends
  unfold rdPartitionLinks
  split_ifs
  all_goals exact List.cons_ne_nil _ _

end

theorem fillAndSend_success {first : Link} {rest : List Link}
    (same : outcome = rdDeleteFillAndSendSinglePacket ins setup onPacketReady
      (first :: rest)) (succeeded : outcome.result ≠ .error) :
    ∃ query deleted later, outcome.queries = [query] ∧
      query.bytes = unpublishQuery ins setup.id deleted ∧
      deleted ++ later = first :: rest ∧
      LongestPrefix (UnpublishFits ins setup) deleted (first :: rest) ∧
      outcome.partition = some (deleted, later) ∧
      outcome.result = if later = [] then .all else .someDeleted := by
  rcases @fillAndSend_cases Link ins setup onPacketReady (first :: rest) with
    ⟨-, failed⟩ | ⟨-, sends⟩
  · rw [same, failed] at succeeded
    exact absurd rfl succeeded
  · rw [← same] at sends
    obtain ⟨some, query, handed, text, cut, result⟩ := sends.success succeeded
    have fits : UnpublishFits ins setup [first] :=
      not_not.mp (mt splitWhileFits_eq_nil_iff.mpr some)
    exact ⟨query, _, _, handed, text, splitWhileFits_append _ _,
      splitWhileFits_longest (unpublishFits_closed ins setup) fits, cut, result⟩

end Call

section Repeated

variable {Link : Type} {ins : Link → Int64} {setup : RdDeleteSetup}

theorem rdDeleteRepeat_ends (ready : Nat → CString → Bool) (fuel call : Nat)
    (first : Link) (rest : List Link)
    (enough : (first :: rest).length ≤ fuel) :
    ∃ queries result,
      rdDeleteRepeat ins setup ready fuel call (first :: rest) =
          (queries, some result) ∧
        (result = .error ∨ result = .all ∧ ∃ groups : List (List Link),
          groups.flatten = first :: rest ∧ (∀ group ∈ groups, group ≠ []) ∧
            queries.map CString.bytes =
              groups.map (unpublishQuery ins setup.id)) := by
  induction fuel generalizing call first rest with
  | zero => cases enough
  | succ fuel ih =>
      rw [rdDeleteRepeat]
      generalize same : rdDeleteFillAndSendSinglePacket ins setup (ready call)
        (first :: rest) = outcome
      by_cases failed : outcome.result = .error
      · have untouched : outcome.partition = none := by
          rcases @fillAndSend_cases Link ins setup (ready call)
            (first :: rest) with ⟨-, error⟩ | ⟨-, sends⟩
          · rw [← same, error]
          · rw [same] at sends
            exact (sends.error failed).2
        refine ⟨outcome.queries, outcome.result, ?_, .inl failed⟩
        simp only [untouched]
      · obtain ⟨query, deleted, later, handed, text, append, longest, cut,
          result⟩ := fillAndSend_success same.symm failed
        cases later with
        | nil =>
            refine ⟨outcome.queries, outcome.result, ?_, .inr ⟨?_, [deleted],
              ?_, ?_, ?_⟩⟩
            · simp only [cut]
            · rw [result, if_pos rfl]
            · rw [List.flatten_singleton, ← append, List.append_nil]
            · intro group member
              rw [List.mem_singleton.mp member]
              exact longest.nonempty
            · rw [handed, List.map_singleton, List.map_singleton, text]
        | cons next later =>
            have fewer := congrArg List.length append
            have some := List.length_pos_iff.mpr longest.nonempty
            rw [List.length_append] at fewer
            obtain ⟨queries, final, ran, ends⟩ :=
              ih (call + 1) next later (by omega)
            refine ⟨outcome.queries ++ queries, final, ?_, ?_⟩
            · simp only [cut, ran]
            · rcases ends with error | ⟨all, groups, whole, nonempty, texts⟩
              · exact .inl error
              · refine .inr ⟨all, deleted :: groups, ?_, ?_, ?_⟩
                · rw [List.flatten_cons, whole, append]
                · rw [List.forall_mem_cons]
                  exact ⟨longest.nonempty, nonempty⟩
                · rw [handed, List.map_append, List.map_singleton, text,
                    texts, List.map_cons, List.singleton_append]

theorem rdDeleteRepeat_all {ready : Nat → CString → Bool}
    (accepts : ∀ call query, ready call query = true) (fuel call : Nat)
    (first : Link) (rest : List Link)
    (fits : ∀ link ∈ first :: rest, UnpublishFits ins setup [link])
    (enough : (first :: rest).length ≤ fuel) :
    (rdDeleteRepeat ins setup ready fuel call (first :: rest)).2 =
      some .all := by
  induction fuel generalizing call first rest with
  | zero => cases enough
  | succ fuel ih =>
      have fitsFirst := fits first List.mem_cons_self
      rw [rdDeleteRepeat]
      generalize same : rdDeleteFillAndSendSinglePacket ins setup (ready call)
        (first :: rest) = outcome
      have succeeded : outcome.result ≠ .error := by
        rcases @fillAndSend_cases Link ins setup (ready call)
          (first :: rest) with ⟨small, -⟩ | ⟨-, sends⟩
        · exact absurd fitsFirst.size (Nat.not_lt.mpr small)
        · rw [same] at sends
          exact sends.accepted (accepts call)
            fun none => splitWhileFits_eq_nil_iff.mp none fitsFirst
      obtain ⟨query, deleted, later, handed, text, append, longest, cut,
        result⟩ := fillAndSend_success same.symm succeeded
      cases later with
      | nil =>
          simp only [cut]
          rw [result, if_pos rfl]
      | cons next later =>
          have fewer := congrArg List.length append
          have some := List.length_pos_iff.mpr longest.nonempty
          rw [List.length_append] at fewer
          simp only [cut]
          refine ih (call + 1) next later (fun link member => ?_) (by omega)
          refine fits link ?_
          rw [← append]
          exact List.mem_append_right deleted member

end Repeated

/-- The requests are as expected exactly if the first link fits, or the buffer
does not even hold the identifier. -/
theorem unpublish_partition {Link : Type} (ins : Link → Int64)
    (setup : RdDeleteSetup) (onPacketReady : CString → Bool) (first : Link)
    (rest : List Link) :
    Unpublishes ins setup onPacketReady (first :: rest) ↔
      UnpublishFits ins setup [first] ∨
        setup.buffer.length ≤ 3 + setup.id.length := by
  constructor
  · intro unpublishes
    by_contra neither
    rw [not_or, Nat.not_le] at neither
    obtain ⟨misses, room⟩ := neither
    refine absurd (unpublishes.nothing ?_) ?_
    · rintro group ⟨behind, append⟩ some fits
      obtain ⟨head, group, rfl⟩ := List.exists_cons_of_ne_nil some
      obtain ⟨rfl, -⟩ := List.cons.inj append
      exact misses (unpublishFits_closed ins setup [head] group
        (List.cons_ne_nil _ _) fits)
    · rcases @fillAndSend_cases Link ins setup onPacketReady
        (first :: rest) with ⟨small, -⟩ | ⟨-, sends⟩
      · exact absurd room (Nat.not_lt.mpr small)
      · exact sends.queries_ne_nil
  · intro condition
    refine ⟨?_, ?_, fun outcome same succeeded =>
      fillAndSend_success same succeeded, ?_, ?_⟩
    · intro outcome same failed
      rcases @fillAndSend_cases Link ins setup onPacketReady
        (first :: rest) with ⟨-, error⟩ | ⟨-, sends⟩
      · rw [same, error]
        exact ⟨rfl, rfl⟩
      · rw [← same] at sends
        have kept := sends.error failed
        rw [splitWhileFits_append, List.nil_append] at kept
        exact kept
    · intro none
      rcases @fillAndSend_cases Link ins setup onPacketReady
        (first :: rest) with ⟨-, error⟩ | ⟨room, -⟩
      · rw [error]
      · rcases condition with fits | small
        · exact absurd fits (none [first] ⟨rest, rfl⟩ (List.cons_ne_nil _ _))
        · exact absurd room (Nat.not_lt.mpr small)
    · intro ready
      exact rdDeleteRepeat_ends ready _ 0 first rest (Nat.le_refl _)
    · intro ready accepts fits
      exact rdDeleteRepeat_all accepts _ 0 first rest fits (Nat.le_refl _)

/-- With a buffer for the identifier only, the query `di=id` is handed over,
which names no link. -/
theorem not_unpublishes_smallBuffer :
    ¬∀ (Link : Type) (ins : Link → Int64) (setup : RdDeleteSetup)
      (onPacketReady : CString → Bool) (links : List Link), links ≠ [] →
        Unpublishes ins setup onPacketReady links := by
  intro every
  have none := (every Int64 id
    ⟨⟨true, true, true, true, true, true, true, true, true, 1024⟩, 300, false,
      ascii "id", List.replicate 6 0, by decide⟩ (fun _ => true) [0]
    (List.cons_ne_nil _ _)).nothing
    (by
      rintro group ⟨behind, append⟩ some fits
      obtain ⟨head, group, rfl⟩ := List.exists_cons_of_ne_nil some
      obtain ⟨rfl, -⟩ := List.cons.inj append
      have fitsFirst := unpublishFits_closed _ _ [0] group
        (List.cons_ne_nil _ _) fits
      revert fitsFirst
      decide)
  revert none
  decide

end IotivityLite
