/-
What an accepted Lazer price vouches for: exactly which transactions get one
accepted, whose key may have signed them, and which bytes were signed.
-/
import Hwal.StepEffects

namespace Hwal

open Guard

/-- Everything that is checked of a posted price, by the transaction and by the
handler. -/
structure LazerGuards (rt : Runtime) (w : World) (tx : Tx) (accs : UpdatePriceFeedFromLazer)
    (payload : List UInt8) (feed : PriceFeed) (message : LazerMessage) : Prop where
  authentic : tx.authentic rt = true
  precompiles : tx.precompilesPass rt = true
  signed : accs.poster ∈ tx.signers
  loaded : w.feeds accs.feed = some feed
  writable : accs.feed ∈ tx.writable
  sysvar : accs.instructions = instructionsSysvarId
  accepted : LazerAccepted feed tx payload message

section Acceptance

variable {rt : Runtime} {w : World} {tx : Tx} {accs : UpdatePriceFeedFromLazer}
  {payload : List UInt8} {feed : PriceFeed} {message : LazerMessage}

theorem updatePriceFeedFromLazer_tryAccounts_eq_ok_iff :
    accs.tryAccounts w tx = .ok feed ↔
      accs.poster ∈ tx.signers ∧ w.feeds accs.feed = some feed ∧ accs.feed ∈ tx.writable ∧
        accs.instructions = instructionsSysvarId := by
  simp only [UpdatePriceFeedFromLazer.tryAccounts, Tx.requireSigner, Tx.requireMut,
    requireAddress, bind_eq_ok_iff, require_eq_ok_iff, exists_and_left, exists_const,
    World.loadPriceFeed_eq_ok_iff, pure_eq_ok_iff]
  constructor
  · rintro ⟨hsigned, loaded, hloaded, hwritable, hsysvar, rfl⟩
    exact ⟨hsigned, hloaded, hwritable, hsysvar⟩
  · rintro ⟨hsigned, hloaded, hwritable, hsysvar⟩
    exact ⟨hsigned, feed, hloaded, hwritable, hsysvar, rfl⟩

/-- The guards are all there is: a transaction that meets them posts its price. -/
theorem LazerGuards.posts (h : LazerGuards rt w tx accs payload feed message) :
    ∃ w', attempt rt w (.invoke tx (.updatePriceFeedFromLazer accs payload)) = .ok w' ∧
      w'.feeds accs.feed = some (feed.record message.price tx.unixTimestamp) := by
  have haccs := updatePriceFeedFromLazer_tryAccounts_eq_ok_iff.mpr
    ⟨h.signed, h.loaded, h.writable, h.sysvar⟩
  have haccept := acceptLazerPayload_eq_ok_iff.mpr h.accepted
  have hok : ∃ w', updatePriceFeedFromLazer w tx accs payload = .ok w' := by
    rw [updatePriceFeedFromLazer, haccs, ok_bind, haccept, ok_bind]
    exact ⟨_, rfl⟩
  rcases hok with ⟨w', hok⟩
  refine ⟨w', attempt_invoke_eq_ok_iff.mpr ⟨h.authentic, h.precompiles, hok⟩, ?_⟩
  rcases feedVerified_of_ok hok with ⟨loaded, decoded, heff⟩
  have hfeed : loaded = feed := Option.some.inj (heff.loaded.symm.trans h.loaded)
  have hdecoded : decoded = message := by
    have hsame := heff.accepted.decoded.symm.trans h.accepted.decoded
    exact Except.ok.inj hsame
  rw [heff.feeds, Function.update_self, hfeed, hdecoded]

theorem lazer_succeeds_iff :
    (∃ w', attempt rt w (.invoke tx (.updatePriceFeedFromLazer accs payload)) = .ok w') ↔
      ∃ feed message, LazerGuards rt w tx accs payload feed message := by
  constructor
  · rintro ⟨w', hok⟩
    rcases attempt_invoke_eq_ok_iff.mp hok with ⟨hauthentic, hprecompiles, hexec⟩
    simp only [execute, updatePriceFeedFromLazer, bind_eq_ok_iff] at hexec
    rcases hexec with ⟨feed, haccs, message, haccept, -⟩
    rcases updatePriceFeedFromLazer_tryAccounts_eq_ok_iff.mp haccs with
      ⟨hsigned, hloaded, hwritable, hsysvar⟩
    exact ⟨feed, message, hauthentic, hprecompiles, hsigned, hloaded, hwritable, hsysvar,
      acceptLazerPayload_eq_ok_iff.mp haccept⟩
  · rintro ⟨feed, message, h⟩
    rcases h.posts with ⟨w', hok, -⟩
    exact ⟨w', hok⟩

end Acceptance

/-! ### A transaction anyone can build -/

/-- A transaction of two instructions: the Ed25519 program's, with data of the
poster's choice, and the program's own. -/
def posterTx (poster key : Pubkey) (now : Int64) (data : List UInt8) : Tx :=
  { signers := [poster]
    writable := [poster, key]
    unixTimestamp := now
    instructions := [⟨Ed25519.programId, data⟩]
    currentIndex := 1 }

/-- The message that sets a feed to a price, dated now. -/
def PriceFeed.messageFor (feed : PriceFeed) (price : UInt64) (now : Int64) : LazerMessage :=
  ⟨feed.lazerFeedId, now, price, feed.lazerChannel⟩

/-- One well-formed signature entry that verifies; nothing is said about who holds
its key. -/
structure ValidEntry (rt : Runtime) (entry : Ed25519.SignatureEntry) : Prop where
  publicKey : entry.publicKey.length = Ed25519.pubkeySerializedSize
  signature : entry.signature.length = Ed25519.signatureSerializedSize
  message : entry.message.length < 256 ^ 2
  verifies : rt.ed25519Verify entry.publicKey entry.signature entry.message = true

section Poster

variable {rt : Runtime} {w : World} {key poster : Pubkey} {feed : PriceFeed}
  {entry : Ed25519.SignatureEntry} {rest : List UInt8} {price : UInt64} {now : Int64}

theorem posterTx_precompilesPass (hentry : ValidEntry rt entry) :
    (posterTx poster key now (Ed25519.newInstructionData entry ++ rest)).precompilesPass rt =
      true := by
  have hverify (datas : List (List UInt8)) : Ed25519.verify rt.ed25519Verify
      (Ed25519.newInstructionData entry ++ rest) datas =
        rt.ed25519Verify entry.publicKey entry.signature entry.message :=
    Ed25519.verify_newInstructionData hentry.publicKey hentry.signature hentry.message rest
      datas
  simp only [Tx.precompilesPass, posterTx, List.all_cons, List.all_nil, hverify,
    hentry.verifies, Bool.or_true, Bool.and_true]

/-- Whoever can have any one message verified can set the price of a Lazer feed: the
payload only has to stand somewhere in the same instruction data. -/
theorem poster_sets_price (hfeed : w.feeds key = some feed)
    (hsource : feed.source = feedSourceLazer) (hposter : rt.canSign poster = true)
    (hprice : 0 < price) (hentry : ValidEntry rt entry)
    (hcarried : encodeLazerPayload (feed.messageFor price now) <:+:
      Ed25519.newInstructionData entry ++ rest) :
    ∃ w', attempt rt w (.invoke
        (posterTx poster key now (Ed25519.newInstructionData entry ++ rest))
        (.updatePriceFeedFromLazer ⟨poster, key, instructionsSysvarId⟩
          (encodeLazerPayload (feed.messageFor price now)))) = .ok w' ∧
      w'.feeds key = some (feed.record price now) := by
  have hguards : LazerGuards rt w
      (posterTx poster key now (Ed25519.newInstructionData entry ++ rest))
      ⟨poster, key, instructionsSysvarId⟩ (encodeLazerPayload (feed.messageFor price now))
      feed (feed.messageFor price now) := by
    constructor
    case authentic => simp [Tx.authentic, posterTx, hposter]
    case precompiles => exact posterTx_precompilesPass hentry
    case signed => exact List.mem_cons_self
    case loaded => exact hfeed
    case writable => exact List.mem_cons_of_mem _ List.mem_cons_self
    case sysvar => rfl
    case accepted =>
      constructor
      case source => exact hsource
      case decoded => exact decodeLazerPayload_eq_ok_iff.mpr ⟨[], (List.append_nil _).symm⟩
      case price_pos => exact hprice
      case feedId => rfl
      case channel => rfl
      case not_future => exact Int.le_refl _
      case recent =>
        have hage : now.toInt - now.toInt ≤ 5 := by omega
        exact hage
      case carried => exact ⟨Nat.one_pos, _, rfl, rfl, hcarried⟩
  exact hguards.posts

end Poster

/-! ### Whose key signed -/

/-- Every signature entry the Ed25519 instructions of a transaction list. -/
def Tx.signatureEntries (tx : Tx) : List Ed25519.SignatureEntry :=
  (tx.instructions.filter fun ix => ix.programId = Ed25519.programId).flatMap fun ix =>
    Ed25519.entries ix.data (tx.instructions.map TxInstruction.data)

/-- A price of the feed at `key` is only ever accepted together with a verified
signature over its payload by a trusted key. -/
def TrustedSignersOnly (rt : Runtime) (w : World) (key : Pubkey)
    (trusted : List UInt8 → Prop) : Prop :=
  ∀ tx accs payload w', accs.feed = key →
    attempt rt w (.invoke tx (.updatePriceFeedFromLazer accs payload)) = .ok w' →
    ∃ entry ∈ tx.signatureEntries, trusted entry.publicKey ∧ entry.message = payload

theorem signatureEntries_posterTx {rt : Runtime} {entry : Ed25519.SignatureEntry}
    (hentry : ValidEntry rt entry) (poster key : Pubkey) (now : Int64) (rest : List UInt8) :
    (posterTx poster key now (Ed25519.newInstructionData entry ++ rest)).signatureEntries =
      [entry] := by
  have hentries := Ed25519.entries_newInstructionData hentry.publicKey hentry.signature
    hentry.message rest
  simp only [Tx.signatureEntries, posterTx, decide_true, List.filter_cons_of_pos,
    List.filter_nil, List.flatMap_cons, List.flatMap_nil, hentries, List.append_nil]

section Outsider

variable {rt : Runtime} {w : World} {key poster : Pubkey} {feed : PriceFeed}
  {entry : Ed25519.SignatureEntry} {price : UInt64} {now : Int64}

/-- What a poster signed with its own key is accepted as it stands. -/
theorem self_signed_accepted (hfeed : w.feeds key = some feed)
    (hsource : feed.source = feedSourceLazer) (hposter : rt.canSign poster = true)
    (hprice : 0 < price) (hentry : ValidEntry rt entry)
    (hmessage : entry.message = encodeLazerPayload (feed.messageFor price now)) :
    ∃ tx accs w', accs.feed = key ∧ tx.signatureEntries = [entry] ∧
      attempt rt w (.invoke tx (.updatePriceFeedFromLazer accs entry.message)) = .ok w' ∧
      w'.feeds key = some (feed.record price now) := by
  have hcarried : encodeLazerPayload (feed.messageFor price now) <:+:
      Ed25519.newInstructionData entry ++ [] := by
    rw [← hmessage, List.append_nil, Ed25519.newInstructionData]
    exact (List.suffix_append _ _).isInfix
  rcases poster_sets_price hfeed hsource hposter hprice hentry hcarried with
    ⟨w', hok, hprice'⟩
  rw [← hmessage] at hok
  exact ⟨_, _, w', rfl, signatureEntries_posterTx hentry poster key now [], hok, hprice'⟩

/-- Whatever keys are trusted, someone outside them who can sign at all breaks the rule
in every state and for every Lazer feed, and sets the price of their choice. -/
theorem no_trusted_signer {trusted : List UInt8 → Prop} (hfeed : w.feeds key = some feed)
    (hsource : feed.source = feedSourceLazer) (hposter : rt.canSign poster = true)
    (hprice : 0 < price) (hentry : ValidEntry rt entry)
    (hmessage : entry.message = encodeLazerPayload (feed.messageFor price now))
    (houtside : ¬ trusted entry.publicKey) :
    ¬ TrustedSignersOnly rt w key trusted ∧
      ∃ tx accs w', accs.feed = key ∧ tx.signatureEntries = [entry] ∧
        attempt rt w (.invoke tx (.updatePriceFeedFromLazer accs entry.message)) = .ok w' ∧
        w'.feeds key = some (feed.record price now) := by
  have haccepted := self_signed_accepted hfeed hsource hposter hprice hentry hmessage
  refine ⟨?_, haccepted⟩
  intro hrule
  rcases haccepted with ⟨tx, accs, w', haccount, hentries, hok, -⟩
  rcases hrule tx accs entry.message w' haccount hok with ⟨found, hfound, htrusted, -⟩
  rw [hentries] at hfound
  rw [List.mem_singleton.mp hfound] at htrusted
  exact houtside htrusted

end Outsider

section Forged

open Localnet

theorem forgedEntry_valid : ValidEntry cluster forgedEntry := by
  constructor <;> decide +kernel

/-- The launched feed is registered under id 6 and channel 1. -/
theorem launch_registered :
    ∃ registered, (runFrom cluster (World.genesis funds) launch).feeds Localnet.feed =
        some registered ∧
      registered.source = feedSourceLazer ∧ registered.lazerFeedId = 6 ∧
      registered.lazerChannel = 1 := by
  have hlaunched : (runFrom cluster (World.genesis funds) launch).feeds Localnet.feed =
      some launchedFeed := by decide +kernel
  exact ⟨launchedFeed, hlaunched, rfl, rfl, rfl⟩

/-- Whatever the publisher's own key is worth, the outsider posts a price of 1. -/
theorem no_trusted_signer_localnet :
    ¬ TrustedSignersOnly cluster (runFrom cluster (World.genesis funds) launch) feed
        (fun publicKey => publicKey = publisher) ∧
      ∃ tx accs w', accs.feed = feed ∧ tx.signatureEntries = [forgedEntry] ∧
        attempt cluster (runFrom cluster (World.genesis funds) launch)
          (.invoke tx (.updatePriceFeedFromLazer accs forgedEntry.message)) = .ok w' ∧
        (w'.feeds feed).map PriceFeed.price = some 1 := by
  rcases launch_registered with ⟨registered, hregistered, hsource, hid, hchannel⟩
  have hmessage : forgedEntry.message =
      encodeLazerPayload (registered.messageFor 1 1010) := by
    rw [PriceFeed.messageFor, hid, hchannel]
    rfl
  have hposter : cluster.canSign poster = true := by decide +kernel
  have houtside : forgedEntry.publicKey ≠ publisher := by decide +kernel
  rcases @no_trusted_signer cluster _ feed poster registered forgedEntry 1 1010
    (fun publicKey => publicKey = publisher) hregistered hsource hposter (by decide)
    forgedEntry_valid hmessage houtside with ⟨hbroken, tx, accs, w', haccount, hentries, hok, hfeed⟩
  refine ⟨hbroken, tx, accs, w', haccount, hentries, hok, ?_⟩
  rw [hfeed]
  rfl

/-- Even with every key but the outsider's trusted, the rule is broken. -/
theorem forged_breaks_trustedSignersOnly :
    ¬ TrustedSignersOnly cluster (runFrom cluster (World.genesis funds) launch) feed
      (fun publicKey => publicKey ≠ outsider) := by
  intro hrule
  have hok : attempt cluster (runFrom cluster (World.genesis funds) launch)
      (.invoke (lazerTx 1010 (Ed25519.newInstructionData forgedEntry))
        (.updatePriceFeedFromLazer ⟨poster, feed, instructionsSysvarId⟩
          forgedEntry.message)) = .ok _ :=
    succeeded_of_isOk (by decide +kernel)
  have hentries : (lazerTx 1010 (Ed25519.newInstructionData forgedEntry)).signatureEntries =
      [forgedEntry] := by decide +kernel
  rcases hrule _ _ _ _ rfl hok with ⟨found, hfound, htrusted, -⟩
  rw [hentries] at hfound
  rw [List.mem_singleton.mp hfound] at htrusted
  exact htrusted rfl

end Forged

/-! ### Which bytes were signed -/

/-- The payload is the message of a signature entry of the preceding instruction. -/
def PayloadVerified (tx : Tx) (payload : List UInt8) : Prop :=
  ∃ priorIx, tx.instructions[tx.currentIndex.toNat - 1]? = some priorIx ∧
    ∃ entry ∈ Ed25519.entries priorIx.data (tx.instructions.map TxInstruction.data),
      entry.message = payload

/-- Some row of an instruction's offset table takes for its message the `size` bytes of the
instruction's own data from `start` on. -/
def DelimitedAt (data : List UInt8) (datas : List (List UInt8)) (start size : Nat) : Prop :=
  ∃ offsets ∈ Ed25519.offsetTable data,
    offsets.messageDataOffset = start ∧ offsets.messageDataSize = size ∧
      Ed25519.instructionData data datas offsets.messageInstructionIndex = some data

/-- The payload stands in the preceding instruction's data only where a row of the offset
table delimits it: not in padding, not among keys and signatures, not inside a longer
message. -/
def PlacesDelimited (tx : Tx) (payload : List UInt8) : Prop :=
  ∀ priorIx, tx.instructions[tx.currentIndex.toNat - 1]? = some priorIx →
    ∀ start, Bytes.slice? priorIx.data start payload.length = some payload →
      DelimitedAt priorIx.data (tx.instructions.map TxInstruction.data) start payload.length

/-- The preceding instruction holds the payload once and its messages itself. -/
structure PlainlyLaidOut (tx : Tx) (payload : List UInt8) : Prop where
  once : ∀ priorIx, tx.instructions[tx.currentIndex.toNat - 1]? = some priorIx →
    ∀ start other, Bytes.slice? priorIx.data start payload.length = some payload →
      Bytes.slice? priorIx.data other payload.length = some payload → start = other
  own : ∀ priorIx, tx.instructions[tx.currentIndex.toNat - 1]? = some priorIx →
    ∀ offsets ∈ Ed25519.offsetTable priorIx.data,
      Ed25519.instructionData priorIx.data (tx.instructions.map TxInstruction.data)
        offsets.messageInstructionIndex = some priorIx.data

section Rows

variable {rt : Runtime} {w : World} {tx : Tx} {accs : UpdatePriceFeedFromLazer}
  {payload : List UInt8} {feed : PriceFeed} {message : LazerMessage}

/-- A passing precompile has resolved every row, so what a row delimits is its message. -/
theorem LazerGuards.payloadVerified (h : LazerGuards rt w tx accs payload feed message)
    {priorIx : TxInstruction} {start : Nat}
    (hprior : tx.instructions[tx.currentIndex.toNat - 1]? = some priorIx)
    (hprogram : priorIx.programId = Ed25519.programId)
    (hslice : Bytes.slice? priorIx.data start payload.length = some payload)
    (hrow : DelimitedAt priorIx.data (tx.instructions.map TxInstruction.data) start
      payload.length) : PayloadVerified tx payload := by
  rcases hrow with ⟨offsets, hoffsets, hstart, hsize, hown⟩
  have hverify := h.precompiles
  rw [Tx.precompilesPass, List.all_eq_true] at hverify
  have hpassed := hverify priorIx (List.mem_of_getElem? hprior)
  simp only [hprogram, bne_self_eq_false, Bool.false_or] at hpassed
  rcases Ed25519.verify_row hpassed hoffsets with ⟨entry, hread, -⟩
  have hmessage := (Ed25519.readEntry_eq_some hread).2.2
  rw [Ed25519.getDataSlice, hown, Option.bind_some, hstart, hsize, hslice] at hmessage
  exact ⟨priorIx, hprior, entry, List.mem_filterMap.mpr ⟨offsets, hoffsets, hread⟩,
    (Option.some.inj hmessage).symm⟩

/-- In a plain layout, a row whose message is the payload delimits the one place where the
payload stands. -/
theorem PayloadVerified.placesDelimited (h : PayloadVerified tx payload)
    (hplain : PlainlyLaidOut tx payload) : PlacesDelimited tx payload := by
  rcases h with ⟨priorIx, hprior, entry, hentry, rfl⟩
  rcases List.mem_filterMap.mp hentry with ⟨offsets, hoffsets, hread⟩
  have hown := hplain.own priorIx hprior offsets hoffsets
  have hmessage := (Ed25519.readEntry_eq_some hread).2.2
  rw [Ed25519.getDataSlice, hown, Option.bind_some] at hmessage
  have hsize : offsets.messageDataSize = entry.message.length := by
    rcases Bytes.slice?_eq_some_iff.mp hmessage with ⟨before, after, -, -, hlength⟩
    exact hlength.symm
  rw [hsize] at hmessage
  intro found hfound start hslice
  obtain rfl := Option.some.inj (hprior.symm.trans hfound)
  exact ⟨offsets, hoffsets, hplain.once priorIx hprior _ _ hmessage hslice, hsize, hown⟩

open Localnet in
/-- In the publisher's instruction, 137 bytes long, its message stands at byte 112 only. -/
theorem recentEntry_place {start : Nat}
    (h : Bytes.slice? (Ed25519.newInstructionData recentEntry) start
      recentEntry.message.length = some recentEntry.message) : start = 112 := by
  have hbounded : ∀ start < 113, Bytes.slice? (Ed25519.newInstructionData recentEntry) start
      recentEntry.message.length = some recentEntry.message → start = 112 := by
    decide +kernel
  apply hbounded start ?_ h
  rcases Bytes.slice?_eq_some_iff.mp h with ⟨before, after, hdata, hstart, -⟩
  have hlength := congrArg List.length hdata
  have hsize : (Ed25519.newInstructionData recentEntry).length = 137 := by decide +kernel
  have hpart : recentEntry.message.length = 25 := by decide +kernel
  simp only [List.length_append, hsize, hpart, hstart] at hlength
  omega

open Localnet in
/-- A second copy behind the message: verified all the same, though not delimited. -/
example :
    let tx := lazerTx 1010 (Ed25519.newInstructionData recentEntry ++ recentEntry.message)
    PayloadVerified tx recentEntry.message ∧ ¬ PlacesDelimited tx recentEntry.message := by
  intro tx
  constructor
  · exact ⟨_, rfl, recentEntry, by decide +kernel, rfl⟩
  · intro hplaces
    have hcopy : Bytes.slice? (Ed25519.newInstructionData recentEntry ++ recentEntry.message)
        137 recentEntry.message.length = some recentEntry.message := by decide +kernel
    rcases hplaces _ rfl 137 hcopy with ⟨offsets, hoffsets, hstart, -⟩
    have hrows : ∀ offsets ∈ Ed25519.offsetTable
        (Ed25519.newInstructionData recentEntry ++ recentEntry.message),
          offsets.messageDataOffset ≠ 137 := by decide +kernel
    exact hrows offsets hoffsets hstart

end Rows

section Padded

variable {rt : Runtime} {w : World} {key poster : Pubkey} {feed : PriceFeed}
  {entry : Ed25519.SignatureEntry} {price : UInt64} {now : Int64}

theorem payloadVerified_posterTx (hentry : ValidEntry rt entry) {payload rest : List UInt8}
    (h : PayloadVerified
      (posterTx poster key now (Ed25519.newInstructionData entry ++ rest)) payload) :
    entry.message = payload := by
  rcases h with ⟨priorIx, hprior, found, hfound, hmessage⟩
  have hdata : (⟨Ed25519.programId, Ed25519.newInstructionData entry ++ rest⟩ : TxInstruction) =
      priorIx := Option.some.inj hprior
  subst hdata
  have hentries := Ed25519.entries_newInstructionData hentry.publicKey hentry.signature
    hentry.message rest
    ((posterTx poster key now (Ed25519.newInstructionData entry ++ rest)).instructions.map
      TxInstruction.data)
  rw [hentries] at hfound
  rw [← List.mem_singleton.mp hfound]
  exact hmessage

/-- One verified message, of whatever content, is enough: a price put behind it in the
same instruction data is accepted, and is not what was verified. -/
theorem padded_price_accepted (hfeed : w.feeds key = some feed)
    (hsource : feed.source = feedSourceLazer) (hposter : rt.canSign poster = true)
    (hprice : 0 < price) (hentry : ValidEntry rt entry)
    (hother : entry.message ≠ encodeLazerPayload (feed.messageFor price now)) :
    let payload := encodeLazerPayload (feed.messageFor price now)
    let tx := posterTx poster key now (Ed25519.newInstructionData entry ++ payload)
    (∃ w', attempt rt w (.invoke tx (.updatePriceFeedFromLazer
          ⟨poster, key, instructionsSysvarId⟩ payload)) = .ok w' ∧
        w'.feeds key = some (feed.record price now)) ∧
      ¬ PayloadVerified tx payload := by
  intro payload tx
  have hcarried : payload <:+: Ed25519.newInstructionData entry ++ payload :=
    (List.suffix_append _ _).isInfix
  refine ⟨poster_sets_price hfeed hsource hposter hprice hentry hcarried, ?_⟩
  intro hverified
  exact hother (payloadVerified_posterTx hentry hverified)

open Localnet in
theorem recentEntry_valid : ValidEntry cluster recentEntry := by
  constructor <;> decide +kernel

open Localnet in
/-- The publisher's genuine message for second 1008, with a price of 1 behind it. -/
def paddedTx : Tx :=
  posterTx Localnet.poster Localnet.feed 1008
    (Ed25519.newInstructionData recentEntry ++ encodeLazerPayload ⟨6, 1008, 1, 1⟩)

end Padded

end Hwal
