/-
`update_price_feed_from_lazer`: decoding a posted price message, the checks on
its content and age, and the scan of the preceding Ed25519 instruction.
-/
import Hwal.FeedInstructions

namespace Hwal

open Guard

structure UpdatePriceFeedFromLazer where
  poster : Pubkey
  feed : Pubkey
  instructions : Pubkey
deriving DecidableEq, Repr

/-- The fields of a posted price message. -/
structure LazerMessage where
  feedId : UInt64
  timestamp : Int64
  price : UInt64
  channel : UInt8
deriving DecidableEq, Repr

def lazerPayloadSize : Nat := 25

def u64FromLeBytes (bytes : List UInt8) : UInt64 := UInt64.ofNat (Bytes.leToNat bytes)

def i64FromLeBytes (bytes : List UInt8) : Int64 := (u64FromLeBytes bytes).toInt64

/-- `payload[0..8]`, `payload[8..16]`, `payload[16..24]` and `payload[24]`; what
follows is ignored. -/
def decodeLazerPayload (payload : List UInt8) : Except ProgramError LazerMessage := do
  require (payload.length ≥ lazerPayloadSize) (.hwal .lazerPayloadInvalid)
  return {
    feedId := u64FromLeBytes (payload.take 8)
    timestamp := i64FromLeBytes ((payload.drop 8).take 8)
    price := u64FromLeBytes ((payload.drop 16).take 8)
    channel := (payload.drop 24).headD 0 }

/-- The 25-byte layout the decoder reads. -/
def encodeLazerPayload (message : LazerMessage) : List UInt8 :=
  Bytes.natToLe 8 message.feedId.toNat ++
    Bytes.natToLe 8 message.timestamp.toUInt64.toNat ++
    Bytes.natToLe 8 message.price.toNat ++ [message.channel]

@[simp] theorem length_encodeLazerPayload (message : LazerMessage) :
    (encodeLazerPayload message).length = lazerPayloadSize := by
  simp [encodeLazerPayload, lazerPayloadSize]

theorem u64FromLeBytes_natToLe (value : UInt64) :
    u64FromLeBytes (Bytes.natToLe 8 value.toNat) = value := by
  rw [u64FromLeBytes, Bytes.leToNat_natToLe 8 _ value.toNat_lt, UInt64.ofNat_toNat]

/-- Decoding recovers an encoded message, whatever follows it. -/
theorem decodeLazerPayload_encode (message : LazerMessage) (rest : List UInt8) :
    decodeLazerPayload (encodeLazerPayload message ++ rest) = .ok message := by
  have hlength : (encodeLazerPayload message ++ rest).length ≥ lazerPayloadSize := by
    simp
  have hid := u64FromLeBytes_natToLe message.feedId
  have hts := u64FromLeBytes_natToLe message.timestamp.toUInt64
  have hprice := u64FromLeBytes_natToLe message.price
  have htail (first second third : List UInt8) (channel : UInt8)
      (h1 : first.length = 8) (h2 : second.length = 8) (h3 : third.length = 8) :
      (first ++ second ++ third ++ [channel] ++ rest).take 8 = first ∧
      ((first ++ second ++ third ++ [channel] ++ rest).drop 8).take 8 = second ∧
      ((first ++ second ++ third ++ [channel] ++ rest).drop 16).take 8 = third ∧
      ((first ++ second ++ third ++ [channel] ++ rest).drop 24).headD 0 = channel := by
    refine ⟨?_, ?_, ?_, ?_⟩
    · simp [h1]
    · simp [h1, h2]
    · have hfirst : first.drop 16 = [] := List.drop_eq_nil_of_le (by omega)
      simp [List.drop_append, hfirst, h1, h2, h3]
    · simp [List.drop_append, h1, h2, h3]
  obtain ⟨e1, e2, e3, e4⟩ := htail (Bytes.natToLe 8 message.feedId.toNat)
    (Bytes.natToLe 8 message.timestamp.toUInt64.toNat)
    (Bytes.natToLe 8 message.price.toNat) message.channel
    (Bytes.length_natToLe ..) (Bytes.length_natToLe ..) (Bytes.length_natToLe ..)
  simp only [decodeLazerPayload, require_of_holds _ hlength, ok_bind]
  simp only [encodeLazerPayload, e1, e2, e3, e4, hid, hprice, i64FromLeBytes, hts]
  rfl

theorem natToLe_u64FromLeBytes {bytes : List UInt8} (h : bytes.length = 8) :
    Bytes.natToLe 8 (u64FromLeBytes bytes).toNat = bytes := by
  have hlt : Bytes.leToNat bytes < 2 ^ 64 := by
    have hbound := Bytes.leToNat_lt bytes
    rwa [h] at hbound
  rw [u64FromLeBytes, UInt64.toNat_ofNat', Nat.mod_eq_of_lt hlt, Bytes.natToLe_leToNat h]

/-- What decodes is an encoded message and whatever follows it. -/
theorem decodeLazerPayload_eq_ok_iff {payload : List UInt8} {message : LazerMessage} :
    decodeLazerPayload payload = .ok message ↔
      ∃ rest, payload = encodeLazerPayload message ++ rest := by
  constructor
  · intro h
    simp only [decodeLazerPayload, require_bind_eq_ok_iff, pure_eq_ok_iff] at h
    rcases h with ⟨hlong, rfl⟩
    have hlength : 25 ≤ payload.length := hlong
    have hid : (payload.take 8).length = 8 := by
      rw [List.length_take]
      omega
    have htimestamp : ((payload.drop 8).take 8).length = 8 := by
      rw [List.length_take, List.length_drop]
      omega
    have hprice : ((payload.drop 16).take 8).length = 8 := by
      rw [List.length_take, List.length_drop]
      omega
    have hchannel : payload.drop 24 = (payload.drop 24).headD 0 :: payload.drop 25 := by
      rw [List.drop_eq_getElem_cons (by omega)]
      rfl
    refine ⟨payload.drop 25, ?_⟩
    simp only [encodeLazerPayload, i64FromLeBytes, UInt64.toUInt64_toInt64,
      natToLe_u64FromLeBytes hid, natToLe_u64FromLeBytes htimestamp,
      natToLe_u64FromLeBytes hprice, List.append_assoc, List.singleton_append]
    calc payload
        = payload.take (8 + 8 + 8) ++ payload.drop 24 := (List.take_append_drop 24 payload).symm
      _ = payload.take 8 ++ ((payload.drop 8).take 8 ++ ((payload.drop 16).take 8 ++
            (payload.drop 24).headD 0 :: payload.drop 25)) := by
          rw [← hchannel, List.take_add, List.take_add]
          simp only [List.append_assoc]
  · rintro ⟨rest, rfl⟩
    exact decodeLazerPayload_encode message rest

/-- A payload reads in one way only. -/
theorem encodeLazerPayload_append_inj {message message' : LazerMessage}
    {rest rest' : List UInt8}
    (h : encodeLazerPayload message ++ rest = encodeLazerPayload message' ++ rest') :
    message = message' ∧ rest = rest' := by
  have hdecoded := decodeLazerPayload_encode message rest
  rw [h, decodeLazerPayload_encode] at hdecoded
  obtain rfl := Except.ok.inj hdecoded
  exact ⟨rfl, List.append_cancel_left h⟩

/-- `verify_lazer_signature_present`: the instruction before the current one
must be the Ed25519 program's and carry the payload somewhere in its data. -/
def verifyLazerSignaturePresent (tx : Tx) (expectedPayload : List UInt8) :
    Except ProgramError Unit := do
  require (tx.currentIndex > 0) (.hwal .lazerSignatureMissing)
  let priorIx ← okOr tx.instructions[tx.currentIndex.toNat - 1]?
    (.hwal .lazerSignatureMissing)
  require (priorIx.programId = Ed25519.programId) (.hwal .lazerSignatureMissing)
  require ((Bytes.windows priorIx.data expectedPayload.length).any
    (fun window => window == expectedPayload) = true) (.hwal .lazerSignatureMissing)

def UpdatePriceFeedFromLazer.tryAccounts (accs : UpdatePriceFeedFromLazer) (w : World)
    (tx : Tx) : Except ProgramError PriceFeed := do
  tx.requireSigner accs.poster
  let feed ← w.loadPriceFeed accs.feed
  tx.requireMut accs.feed
  requireAddress accs.instructions instructionsSysvarId (.anchor .constraintAddress)
  return feed

/-- The checks between loading the feed and writing it. -/
def acceptLazerPayload (feed : PriceFeed) (tx : Tx) (payload : List UInt8) :
    Except ProgramError LazerMessage := do
  require (feed.source = feedSourceLazer) (.hwal .feedNotLazer)
  let message ← decodeLazerPayload payload
  require (message.price > 0) (.hwal .priceFeedZero)
  require (feed.lazerFeedId = message.feedId) (.hwal .lazerFeedIdMismatch)
  require (feed.lazerChannel = message.channel) (.hwal .lazerFeedIdMismatch)
  let age := tx.unixTimestamp.saturatingSub message.timestamp
  require (age ≥ 0 ∧ age ≤ maxLazerPayloadAgeSecs) (.hwal .lazerPayloadStale)
  verifyLazerSignaturePresent tx payload
  return message

def updatePriceFeedFromLazer (w : World) (tx : Tx) (accs : UpdatePriceFeedFromLazer)
    (payload : List UInt8) : Except ProgramError World := do
  let feed ← accs.tryAccounts w tx
  let message ← acceptLazerPayload feed tx payload
  let updated := feed.record message.price tx.unixTimestamp
  return ((w.store accs.feed (.priceFeed updated)).emit
    (.lazerPriceVerified accs.feed message.feedId message.channel message.price
      message.timestamp tx.unixTimestamp)).emit
    (PriceFeed.updatedEvent accs.feed feed updated)

/-- The payload stands somewhere in the data of a preceding Ed25519 instruction. -/
def PayloadCarried (tx : Tx) (payload : List UInt8) : Prop :=
  0 < tx.currentIndex.toNat ∧
    ∃ priorIx, tx.instructions[tx.currentIndex.toNat - 1]? = some priorIx ∧
      priorIx.programId = Ed25519.programId ∧ payload <:+: priorIx.data

theorem verifyLazerSignaturePresent_eq_ok_iff {tx : Tx} {payload : List UInt8} {u : Unit} :
    verifyLazerSignaturePresent tx payload = .ok u ↔ PayloadCarried tx payload := by
  have hindex : tx.currentIndex > 0 ↔ 0 < tx.currentIndex.toNat := UInt16.lt_iff_toNat_lt
  simp only [verifyLazerSignaturePresent, PayloadCarried, bind_eq_ok_iff, require_eq_ok_iff,
    okOr_eq_ok_iff, exists_and_left, exists_const, Bytes.any_windows_iff, hindex]

/-- What the checks demand of a message, read over the integers. -/
structure LazerAccepted (feed : PriceFeed) (tx : Tx) (payload : List UInt8)
    (message : LazerMessage) : Prop where
  source : feed.source = feedSourceLazer
  decoded : decodeLazerPayload payload = .ok message
  price_pos : 0 < message.price
  feedId : feed.lazerFeedId = message.feedId
  channel : feed.lazerChannel = message.channel
  not_future : message.timestamp.toInt ≤ tx.unixTimestamp.toInt
  recent : tx.unixTimestamp.toInt - message.timestamp.toInt ≤ 5
  carried : PayloadCarried tx payload

theorem acceptLazerPayload_eq_ok_iff {feed : PriceFeed} {tx : Tx} {payload : List UInt8}
    {message : LazerMessage} :
    acceptLazerPayload feed tx payload = .ok message ↔
      LazerAccepted feed tx payload message := by
  have hage (message : LazerMessage) :
      tx.unixTimestamp.saturatingSub message.timestamp ≤ maxLazerPayloadAgeSecs ↔
        tx.unixTimestamp.toInt - message.timestamp.toInt ≤ 5 :=
    Int64.saturatingSub_le_iff (by decide)
  have hfuture (message : LazerMessage) :
      tx.unixTimestamp.saturatingSub message.timestamp ≥ 0 ↔
        message.timestamp.toInt ≤ tx.unixTimestamp.toInt :=
    Int64.zero_le_saturatingSub_iff
  simp only [acceptLazerPayload, bind_eq_ok_iff, require_eq_ok_iff, exists_and_left,
    exists_const, verifyLazerSignaturePresent_eq_ok_iff, pure_eq_ok_iff, hage, hfuture]
  constructor
  · rintro ⟨hsource, message', hdecode, hprice, hid, hchannel, ⟨hnow, hrecent⟩, hcarried, rfl⟩
    exact ⟨hsource, hdecode, hprice, hid, hchannel, hnow, hrecent, hcarried⟩
  · intro h
    exact ⟨h.source, message, h.decoded, h.price_pos, h.feedId, h.channel,
      ⟨h.not_future, h.recent⟩, h.carried, rfl⟩

theorem updatePriceFeedFromLazer_eq_ok {w w' : World} {tx : Tx}
    {accs : UpdatePriceFeedFromLazer} {payload : List UInt8}
    (h : updatePriceFeedFromLazer w tx accs payload = .ok w') :
    ∃ feed message,
      accs.poster ∈ tx.signers ∧ w.feeds accs.feed = some feed ∧
      LazerAccepted feed tx payload message ∧
      w' = ((w.store accs.feed
            (.priceFeed (feed.record message.price tx.unixTimestamp))).emit
          (.lazerPriceVerified accs.feed message.feedId message.channel message.price
            message.timestamp tx.unixTimestamp)).emit
        (PriceFeed.updatedEvent accs.feed feed
          (feed.record message.price tx.unixTimestamp)) := by
  simp only [updatePriceFeedFromLazer, UpdatePriceFeedFromLazer.tryAccounts,
    Tx.requireSigner, Tx.requireMut, requireAddress, bind_eq_ok_iff, require_eq_ok_iff,
    exists_and_left, exists_const, World.loadPriceFeed_eq_ok_iff,
    acceptLazerPayload_eq_ok_iff, pure_eq_ok_iff] at h
  obtain ⟨feed, ⟨hsigner, loaded, hload, -, -, rfl⟩, message, haccepted, rfl⟩ := h
  exact ⟨loaded, message, hsigner, hload, haccepted, rfl⟩

end Hwal
