/-
What identifies an account: the fields its bytes begin with, which no instruction ever
writes again, and from which its address is derived.  A client that remembers the front
of an account's data finds that account, and no other, at any later time.
-/
import Hwal.AccountData
import Hwal.Invariants

namespace Hwal

open Guard

/-- The fields in front of those that instructions change. -/
abbrev AccountKind.Identity : AccountKind → Type
  | config => Unit
  | priceFeed => Pubkey × FeedSymbol × UInt8
  | position => Pubkey × Pubkey × Pubkey × UInt64 × UInt8

def AccountKind.identityCodec : (kind : AccountKind) → Codec UInt8 kind.Identity
  | config => .unit
  | priceFeed => pubkeyCodec.pair <| symbolCodec.pair Codec.u8
  | position => pubkeyCodec.pair <| pubkeyCodec.pair <| pubkeyCodec.pair <|
      Codec.u64.pair Codec.u8

theorem AccountKind.mem_all (kind : AccountKind) :
    kind ∈ [AccountKind.config, AccountKind.priceFeed, AccountKind.position] := by
  cases kind <;> decide

abbrev Identity := Σ kind : AccountKind, kind.Identity

/-- The discriminator and the identifying fields. -/
def identityCodec : Codec UInt8 Identity :=
  (Codec.tag [.config, .priceFeed, .position] AccountKind.mem_all AccountKind.discriminator
    AccountKind.discriminator_injective).sigma AccountKind.identityCodec

def ProgramAccount.identifying : (account : ProgramAccount) → account.kind.Identity
  | .config _ => ()
  | .priceFeed record => (record.authority, record.symbol, record.decimals)
  | .position record =>
      (record.owner, record.feed, record.vault, record.nonce, record.side)

def ProgramAccount.identity (account : ProgramAccount) : Identity :=
  ⟨account.kind, account.identifying⟩

/-- The seeds of the account's address. -/
def Identity.seeds : Identity → Seeds
  | ⟨.config, _⟩ => .config
  | ⟨.priceFeed, (_, symbol, _)⟩ => .feed symbol
  | ⟨.position, (owner, _, _, nonce, _)⟩ => .position owner nonce

def Identity.address (rt : Runtime) (identity : Identity) : Pubkey :=
  (rt.findProgramAddress identity.seeds).1

/-- An account's data begins with its identity. -/
theorem identity_prefix_data (account : ProgramAccount) :
    identityCodec.encode account.identity <+: account.data := by
  apply (List.prefix_append_right_inj account.kind.discriminator.toList).mpr
  cases account with
  | config record => exact List.nil_prefix
  | priceFeed record =>
      exact Codec.pair_prefix_pair _ _ <| Codec.pair_prefix_pair _ _ <|
        Codec.prefix_pair _ _ _ _
  | position record =>
      exact Codec.pair_prefix_pair _ _ <| Codec.pair_prefix_pair _ _ <|
        Codec.pair_prefix_pair _ _ <| Codec.pair_prefix_pair _ _ <|
        Codec.prefix_pair _ _ _ _

/-! ### One step -/

/-- Every account stands at the address its identity gives. -/
def Located (rt : Runtime) (w : World) : Prop :=
  ∀ key account, w.accounts key = some account → key = account.identity.address rt

section Step

variable {rt : Runtime} {w w' : World} {action : Action} {key : Pubkey}

theorem identity_retarget (position : Position)
    (stopPrice takeProfitPrice trailingOffset : UInt64) :
    (ProgramAccount.position
      (position.retarget stopPrice takeProfitPrice trailingOffset)).identity =
      (ProgramAccount.position position).identity := by
  rw [retarget_frame]
  rfl

/-- No action closes an account or rewrites its identity. -/
theorem Effect.identity_kept (h : Effect rt w action w') {account : ProgramAccount}
    (haccount : w.accounts key = some account) :
    ∃ account', w'.accounts key = some account' ∧ account'.identity = account.identity := by
  cases account with
  | config config =>
      have hat := h.atConfig key
      rw [World.configs_eq_some_iff.mpr haccount] at hat
      generalize hafter : w'.configs key = after at hat
      cases hat with
      | kept => exact ⟨_, World.configs_eq_some_iff.mp hafter, rfl⟩
      | changed account heff => exact ⟨_, World.configs_eq_some_iff.mp hafter, rfl⟩
      | opened account heff => exact ⟨_, World.configs_eq_some_iff.mp hafter, rfl⟩
      | settled account heff => exact ⟨_, World.configs_eq_some_iff.mp hafter, rfl⟩
      | cancelled account heff => exact ⟨_, World.configs_eq_some_iff.mp hafter, rfl⟩
  | priceFeed feed =>
      have hat := h.atFeed key
      rw [World.feeds_eq_some_iff.mpr haccount] at hat
      generalize hafter : w'.feeds key = after at hat
      cases hat with
      | kept writes => exact ⟨_, World.feeds_eq_some_iff.mp hafter, rfl⟩
      | pushed account heff => exact ⟨_, World.feeds_eq_some_iff.mp hafter, rfl⟩
      | registered account heff => exact ⟨_, World.feeds_eq_some_iff.mp hafter, rfl⟩
      | verified account heff => exact ⟨_, World.feeds_eq_some_iff.mp hafter, rfl⟩
  | position position =>
      have hat := h.atPosition key
      rw [World.positions_eq_some_iff.mpr haccount] at hat
      generalize hafter : w'.positions key = after at hat
      cases hat with
      | kept pays => exact ⟨_, World.positions_eq_some_iff.mp hafter, rfl⟩
      | retargeted account heff =>
          exact ⟨_, World.positions_eq_some_iff.mp hafter, identity_retarget _ _ _ _⟩
      | ticked account heff => exact ⟨_, World.positions_eq_some_iff.mp hafter, rfl⟩
      | settled account heff => exact ⟨_, World.positions_eq_some_iff.mp hafter, rfl⟩
      | cancelled account heff => exact ⟨_, World.positions_eq_some_iff.mp hafter, rfl⟩
      | delegated account heff => exact ⟨_, World.positions_eq_some_iff.mp hafter, rfl⟩
      | undelegated account heff => exact ⟨_, World.positions_eq_some_iff.mp hafter, rfl⟩

/-- A new account is created where its identity says; an old one stays there. -/
theorem Effect.located (h : Effect rt w action w') (hlocated : Located rt w) :
    Located rt w' := by
  intro key account hafter
  cases hbefore : w.accounts key with
  | some before =>
      rcases h.identity_kept hbefore with ⟨found, hfound, hsame⟩
      obtain rfl := Option.some.inj (hfound.symm.trans hafter)
      rw [hsame]
      exact hlocated key before hbefore
  | none =>
      have hunused := World.views_of_unused hbefore
      cases account with
      | config config =>
          have hat := h.atConfig key
          rw [hunused.1, World.configs_eq_some_iff.mpr hafter] at hat
          cases hat with
          | created account heff => exact account.symm.trans heff.init.address
      | priceFeed feed =>
          have hat := h.atFeed key
          rw [hunused.2.1, World.feeds_eq_some_iff.mpr hafter] at hat
          cases hat with
          | created account heff => exact account.symm.trans heff.init.address
      | position position =>
          have hat := h.atPosition key
          rw [hunused.2.2, World.positions_eq_some_iff.mpr hafter] at hat
          cases hat with
          | opened account heff => exact account.symm.trans heff.init.address

theorem step_located (hlocated : Located rt w) (action : Action) :
    Located rt (step rt w action) := by
  rcases step_effect rt w action with heffect | hsame
  · exact heffect.located hlocated
  · rw [hsame]
    exact hlocated

end Step

/-! ### Whole runs -/

variable {rt : Runtime}

theorem located_of_run (lamports : Lamports) (actions : List Action) :
    Located rt (runFrom rt (World.genesis lamports) actions) := by
  apply Transition.run_invariant (step rt)
  · intro key account hnone
    contradiction
  · intro w action hlocated
    exact step_located hlocated action

theorem identity_kept_run {w : World} {key : Pubkey} {account : ProgramAccount}
    (h : w.accounts key = some account) (later : List Action) :
    ∃ account', (runFrom rt w later).accounts key = some account' ∧
      account'.identity = account.identity := by
  induction later generalizing w account with
  | nil => exact ⟨account, h, rfl⟩
  | cons action rest ih =>
      have hnext : ∃ next, (step rt w action).accounts key = some next ∧
          next.identity = account.identity := by
        rcases step_effect rt w action with heffect | hsame
        · exact heffect.identity_kept h
        · exact ⟨account, by rw [hsame, h], rfl⟩
      rcases hnext with ⟨next, hstored, hsame⟩
      rcases ih hstored with ⟨account', hend, hkept⟩
      exact ⟨account', hend, hkept.trans hsame⟩

/-- At any point of any run, the data of an account begins with an identity from which its
address is derived.  Whatever happens later, the address still holds data of the same
length with the same beginning, and no other address holds data that begins so. -/
theorem account_identity (rt : Runtime) (lamports : Lamports) (earlier later : List Action) :
    let w := runFrom rt (World.genesis lamports) earlier
    let w' := runFrom rt w later
    ∀ key data, w.dataAt key = some data →
      ∃ identity : Identity, identityCodec.encode identity <+: data ∧
        key = identity.address rt ∧
        (∃ data', w'.dataAt key = some data' ∧ data'.length = data.length ∧
          identityCodec.encode identity <+: data') ∧
        ∀ key' data', w'.dataAt key' = some data' →
          identityCodec.encode identity <+: data' → key' = key := by
  intro w w' key data hdata
  rcases Option.map_eq_some_iff.mp hdata with ⟨account, haccount, rfl⟩
  have haddress := located_of_run lamports earlier key account haccount
  rcases identity_kept_run haccount later with ⟨account', haccount', hidentity⟩
  refine ⟨account.identity, identity_prefix_data account, haddress, ?_, ?_⟩
  · refine ⟨account'.data, Option.map_eq_some_iff.mpr ⟨account', haccount', rfl⟩, ?_, ?_⟩
    · have hkind : account'.kind = account.kind := congrArg Sigma.fst hidentity
      rw [length_data, length_data, hkind]
    · rw [← hidentity]
      exact identity_prefix_data account'
  · intro key' data' hdata' hbegins
    rcases Option.map_eq_some_iff.mp hdata' with ⟨other, hother, rfl⟩
    have hrun : w' = runFrom rt (World.genesis lamports) (earlier ++ later) :=
      (Transition.run_append ..).symm
    rw [hrun] at hother
    have haddress' := located_of_run lamports (earlier ++ later) key' other hother
    rcases hbegins with ⟨rest, hrest⟩
    rcases identity_prefix_data other with ⟨rest', hrest'⟩
    have hsame := (identityCodec.encode_append_inj (hrest.trans hrest'.symm)).1
    rw [haddress', haddress, hsame]

open Localnet in
/-- A deposit of alice's, looked up again after a price push. -/
theorem account_identity_pushed :
    ∃ data, (runFrom cluster (World.genesis funds) (launch ++ [deposit])).dataAt position =
        some data ∧ data.length = positionSpace ∧
      ∃ identity : Identity, identityCodec.encode identity <+: data ∧
        position = identity.address cluster ∧
        (∃ data', (runFrom cluster (runFrom cluster (World.genesis funds) (launch ++ [deposit]))
            [push 110000000 1004]).dataAt position = some data' ∧
          data'.length = data.length ∧ identityCodec.encode identity <+: data') := by
  have hlength : ((runFrom cluster (World.genesis funds) (launch ++ [deposit])).dataAt
      position).map List.length = some positionSpace := by decide +kernel
  rcases Option.map_eq_some_iff.mp hlength with ⟨data, hdata, hsize⟩
  rcases account_identity cluster funds (launch ++ [deposit]) [push 110000000 1004] position
    data hdata with ⟨identity, hbegins, haddress, hlater, -⟩
  exact ⟨data, hdata, hsize, identity, hbegins, haddress, hlater⟩

end Hwal
