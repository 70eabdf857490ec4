/-
`update_price_feed_from_lazer` as it runs: slices and subtractions that panic out of
range, and the feed written in place.  The instruction of `LazerInstruction` is this
handler, with the panics shown never to happen and the writes never to be cut short.
-/
import Hwal.LazerVerification
import Hwal.Support.InPlace

namespace Hwal

open Guard InPlace

namespace LazerHandler

/-- What the handler changes: the data of the feed account, and the log. -/
structure Context where
  feed : PriceFeed
  log : List Event
deriving DecidableEq, Repr

def fail (error : HwalError) : Abort ProgramError := .raised (.hwal error)

/-- `payload[start..start + 8].try_into().map_err(..)?`. -/
def eightBytes (payload : List UInt8) (start : Nat) :
    Except (Abort ProgramError) (List UInt8) := do
  let bytes ← slice payload start (start + 8)
  require (bytes.length = 8) (fail .lazerPayloadInvalid)
  return bytes

def readMessage (payload : List UInt8) : Except (Abort ProgramError) LazerMessage := do
  require (payload.length ≥ lazerPayloadSize) (fail .lazerPayloadInvalid)
  let feedId ← eightBytes payload 0
  let payloadTimestamp ← eightBytes payload 8
  let newPrice ← eightBytes payload 16
  let channel ← index payload 24
  return {
    feedId := u64FromLeBytes feedId
    timestamp := i64FromLeBytes payloadTimestamp
    price := u64FromLeBytes newPrice
    channel := channel }

/-- `verify_lazer_signature_present`, with the subtraction and the scan that can panic. -/
def verifySignaturePresent (tx : Tx) (expectedPayload : List UInt8) :
    Except (Abort ProgramError) Unit := do
  require (tx.currentIndex > 0) (fail .lazerSignatureMissing)
  let priorIndex ← subtract tx.currentIndex.toNat 1
  let priorIx ← okOr tx.instructions[priorIndex]? (fail .lazerSignatureMissing)
  require (priorIx.programId = Ed25519.programId) (fail .lazerSignatureMissing)
  let parts ← windows priorIx.data expectedPayload.length
  require (parts.any (fun part => part == expectedPayload) = true) (fail .lazerSignatureMissing)

def emit (event : Event) : Call Context ProgramError Unit :=
  modify fun context => { context with log := context.log ++ [event] }

/-- `feed.price = ..; feed.last_updated = ..; feed.update_count = ..` and the two events. -/
def writePrice (key : Pubkey) (now : Int64) (message : LazerMessage) :
    Call Context ProgramError Unit := do
  let oldPrice := (← get).feed.price
  modify fun context => { context with feed := { context.feed with price := message.price } }
  modify fun context => { context with feed := { context.feed with lastUpdated := now } }
  modify fun context => { context with
    feed := { context.feed with updateCount := context.feed.updateCount.saturatingAdd 1 } }
  emit (.lazerPriceVerified key message.feedId message.channel message.price
    message.timestamp now)
  let feed := (← get).feed
  emit (.priceFeedUpdated key oldPrice message.price feed.lastUpdated feed.updateCount)

def handler (key : Pubkey) (tx : Tx) (payload : List UInt8) :
    Call Context ProgramError Unit := do
  let context ← get
  require (context.feed.source = feedSourceLazer) (fail .feedNotLazer)
  let message ← readMessage payload
  require (message.price > 0) (fail .priceFeedZero)
  require (context.feed.lazerFeedId = message.feedId) (fail .lazerFeedIdMismatch)
  require (context.feed.lazerChannel = message.channel) (fail .lazerFeedIdMismatch)
  let age := tx.unixTimestamp.saturatingSub message.timestamp
  require (age ≥ 0 ∧ age ≤ maxLazerPayloadAgeSecs) (fail .lazerPayloadStale)
  verifySignaturePresent tx payload
  writePrice key tx.unixTimestamp message

/-- The state a posted message leaves. -/
def Context.posted (context : Context) (key : Pubkey) (now : Int64) (message : LazerMessage) :
    Context :=
  { feed := context.feed.record message.price now
    log := context.log ++ [
      .lazerPriceVerified key message.feedId message.channel message.price message.timestamp
        now,
      PriceFeed.updatedEvent key context.feed (context.feed.record message.price now)] }

/-! ### No panic, no partial write -/

theorem eightBytes_eq {payload : List UInt8} {start : Nat}
    (h : start + 8 ≤ payload.length) :
    eightBytes payload start = .ok ((payload.drop start).take 8) := by
  have hlength : ((payload.drop start).take (start + 8 - start)).length = 8 := by
    rw [List.length_take, List.length_drop]
    omega
  rw [eightBytes, slice_of_le (Nat.le_add_right _ _) h, ok_bind, require_of_holds _ hlength,
    ok_bind, Nat.add_sub_cancel_left]
  rfl

theorem readMessage_eq (payload : List UInt8) :
    readMessage payload = raise (decodeLazerPayload payload) := by
  by_cases hlong : payload.length ≥ lazerPayloadSize
  · have hlength : 25 ≤ payload.length := hlong
    rw [readMessage, require_of_holds _ hlong, ok_bind, eightBytes_eq (by omega), ok_bind,
      eightBytes_eq (by omega), ok_bind, eightBytes_eq (by omega), ok_bind,
      index_of_lt 0 (by omega), ok_bind, decodeLazerPayload, require_of_holds _ hlong]
    rfl
  · rw [readMessage, decodeLazerPayload, require, if_neg hlong, require, if_neg hlong]
    rfl

/-- The index and the payload's own length are checked before they can panic. -/
theorem verifySignaturePresent_eq (tx : Tx) {payload : List UInt8} (hne : 0 < payload.length) :
    verifySignaturePresent tx payload = raise (verifyLazerSignaturePresent tx payload) := by
  by_cases hindex : tx.currentIndex > 0
  · have hpos : 1 ≤ tx.currentIndex.toNat := UInt16.lt_iff_toNat_lt.mp hindex
    simp only [verifySignaturePresent, verifyLazerSignaturePresent, raise_bind, raise_require,
      raise_okOr, fail, subtract_of_le hpos, windows_of_pos _ hne, ok_bind]
  · rw [verifySignaturePresent, verifyLazerSignaturePresent, require, if_neg hindex, require,
      if_neg hindex]
    rfl

theorem writePrice_exec (key : Pubkey) (now : Int64) (message : LazerMessage)
    (context : Context) :
    (writePrice key now message).exec context =
      (.ok (), context.posted key now message) := by
  -- the two events are appended one after the other
  rw [Context.posted, List.append_cons]
  rfl

/-- The handler makes the checks of the instruction and then writes what it records. -/
theorem handler_checksThenWrites (key : Pubkey) (tx : Tx) (payload : List UInt8)
    (context : Context) :
    ChecksThenWrites (handler key tx payload) context
      (acceptLazerPayload context.feed tx payload)
      (context.posted key tx.unixTimestamp) := by
  apply ChecksThenWrites.get
  apply ChecksThenWrites.require
  intro _
  apply ChecksThenWrites.check (readMessage_eq payload)
  intro message hdecode
  apply ChecksThenWrites.require
  intro _
  apply ChecksThenWrites.require
  intro _
  apply ChecksThenWrites.require
  intro _
  apply ChecksThenWrites.require
  intro _
  have hne : 0 < payload.length := by
    rcases decodeLazerPayload_eq_ok_iff.mp hdecode with ⟨rest, rfl⟩
    rw [List.length_append, length_encodeLazerPayload, lazerPayloadSize]
    omega
  apply ChecksThenWrites.check (verifySignaturePresent_eq tx hne)
  intro _ _
  exact ChecksThenWrites.write (writePrice_exec ..)

/-! ### The instruction -/

/-- The instruction around the handler: accounts are loaded before it, and the feed is
written back once it has succeeded. -/
def instruction (w : World) (tx : Tx) (accs : UpdatePriceFeedFromLazer) (payload : List UInt8) :
    Except (Abort ProgramError) World := do
  let feed ← raise (accs.tryAccounts w tx)
  match (handler accs.feed tx payload).exec ⟨feed, w.log⟩ with
  | (.ok (), context) =>
      return { w.store accs.feed (.priceFeed context.feed) with log := context.log }
  | (.error abort, _) => .error abort

/-- The instruction as the rest of the development knows it is this one. -/
theorem instruction_eq (w : World) (tx : Tx) (accs : UpdatePriceFeedFromLazer)
    (payload : List UInt8) :
    instruction w tx accs payload = raise (updatePriceFeedFromLazer w tx accs payload) := by
  rw [instruction, updatePriceFeedFromLazer, raise_bind]
  congr 1
  funext feed
  have hruns := handler_checksThenWrites accs.feed tx payload ⟨feed, w.log⟩
  rw [hruns, raise_bind]
  cases acceptLazerPayload feed tx payload with
  | error e => rfl
  | ok message =>
      dsimp only [Context.posted]
      rw [List.append_cons]
      rfl

/-! ### Which payloads are accepted -/

/-- The checks of the instruction, read off the bytes of the payload. -/
theorem lazerAccepted_iff {feed : PriceFeed} {tx : Tx} {payload : List UInt8}
    {message : LazerMessage} :
    LazerAccepted feed tx payload message ↔
      ∃ rest, payload = encodeLazerPayload message ++ rest ∧
        feed.source = feedSourceLazer ∧ 0 < message.price ∧
        feed.lazerFeedId = message.feedId ∧ feed.lazerChannel = message.channel ∧
        0 ≤ tx.unixTimestamp.toInt - message.timestamp.toInt ∧
        tx.unixTimestamp.toInt - message.timestamp.toInt ≤ 5 ∧ PayloadCarried tx payload := by
  constructor
  · intro h
    rcases decodeLazerPayload_eq_ok_iff.mp h.decoded with ⟨rest, hpayload⟩
    exact ⟨rest, hpayload, h.source, h.price_pos, h.feedId, h.channel,
      Int.sub_nonneg_of_le h.not_future, h.recent, h.carried⟩
  · rintro ⟨rest, hpayload, hsource, hprice, hid, hchannel, hpast, hrecent, hcarried⟩
    exact ⟨hsource, decodeLazerPayload_eq_ok_iff.mpr ⟨rest, hpayload⟩, hprice, hid, hchannel,
      Int.le_of_sub_nonneg hpast, hrecent, hcarried⟩

/-- For every payload, feed, clock value and transaction: the handler does not panic; it
succeeds on a positive price for the registered feed, at most five seconds old and carried
by the Ed25519 instruction before it, and on nothing else; such a payload reads in one way
only; what a success leaves depends on the message alone, and a failure changes nothing.
The instruction that runs execute is this handler, its accounts loaded before it. -/
theorem lazer_handler_outcome (key : Pubkey) (tx : Tx) (payload : List UInt8)
    (context : Context) :
    ((handler key tx payload).exec context).1 ≠ .error .panicked ∧
    (((handler key tx payload).exec context).1 = .ok () ↔
      ∃ message rest, payload = encodeLazerPayload message ++ rest ∧
        context.feed.source = feedSourceLazer ∧ 0 < message.price ∧
        context.feed.lazerFeedId = message.feedId ∧
        context.feed.lazerChannel = message.channel ∧
        0 ≤ tx.unixTimestamp.toInt - message.timestamp.toInt ∧
        tx.unixTimestamp.toInt - message.timestamp.toInt ≤ 5 ∧ PayloadCarried tx payload) ∧
    (∀ message rest message' rest', payload = encodeLazerPayload message ++ rest →
      payload = encodeLazerPayload message' ++ rest' → message = message' ∧ rest = rest') ∧
    (∀ message rest, payload = encodeLazerPayload message ++ rest →
      ((handler key tx payload).exec context).1 = .ok () →
        ((handler key tx payload).exec context).2 =
          context.posted key tx.unixTimestamp message) ∧
    (((handler key tx payload).exec context).1 ≠ .ok () →
      ((handler key tx payload).exec context).2 = context) ∧
    (∀ w accs, instruction w tx accs payload =
      raise (updatePriceFeedFromLazer w tx accs payload)) := by
  have hruns := handler_checksThenWrites key tx payload context
  refine ⟨hruns.not_panicked, ?_, ?_, ?_, hruns.unchanged,
    fun w accs => instruction_eq w tx accs payload⟩
  · rw [hruns.ok_iff]
    exact exists_congr fun message => acceptLazerPayload_eq_ok_iff.trans lazerAccepted_iff
  · rintro message rest message' rest' hpayload hpayload'
    exact encodeLazerPayload_append_inj (hpayload.symm.trans hpayload')
  · intro message rest hpayload hok
    rcases hruns.ok_iff.mp hok with ⟨accepted, haccepted⟩
    rcases lazerAccepted_iff.mp (acceptLazerPayload_eq_ok_iff.mp haccepted) with
      ⟨rest', hpayload', -⟩
    rcases encodeLazerPayload_append_inj (hpayload.symm.trans hpayload') with ⟨rfl, -⟩
    exact hruns.written haccepted

section Recent

open Localnet

/-- The publisher's message with two bytes behind it is accepted as the message. -/
theorem lazer_handler_outcome_recent :
    (handler Localnet.feed
        (lazerTx 1010 (Ed25519.newInstructionData recentEntry ++ [7, 7]))
        (encodeLazerPayload ⟨6, 1008, 99000000, 1⟩ ++ [7, 7])).exec ⟨launchedFeed, []⟩ =
      (.ok (), (⟨launchedFeed, []⟩ : Context).posted Localnet.feed 1010
        ⟨6, 1008, 99000000, 1⟩) := by
  rcases lazer_handler_outcome Localnet.feed
    (lazerTx 1010 (Ed25519.newInstructionData recentEntry ++ [7, 7]))
    (encodeLazerPayload ⟨6, 1008, 99000000, 1⟩ ++ [7, 7]) ⟨launchedFeed, []⟩ with
    ⟨-, hiff, -, hposted, -⟩
  have hcarried : encodeLazerPayload ⟨6, 1008, 99000000, 1⟩ ++ [7, 7] <:+:
      Ed25519.newInstructionData recentEntry ++ [7, 7] := by
    rw [Ed25519.newInstructionData, List.append_assoc]
    exact (List.suffix_append _ _).isInfix
  have hok := hiff.mpr ⟨⟨6, 1008, 99000000, 1⟩, [7, 7], rfl, rfl, by decide, rfl, rfl,
    by decide, by decide, Nat.one_pos, _, rfl, rfl, hcarried⟩
  exact Prod.ext hok (hposted _ _ rfl hok)

end Recent

end LazerHandler

end Hwal
