/-
Which clients the block list leaves alone. An address is compared as the text of its usual form, with the entries of
the white list and with the names of the own host. So an entry exempts an address only if it is that form and no other
spelling, and of all the addresses of the own host only one of each size is exempt.
-/
import Tollgate.Proofs.Gateway.Accounts
import Tollgate.Proofs.Gateway.Reading
import Tollgate.Proofs.Net.Address
import Tollgate.Proofs.Text.Trim

namespace Tollgate

/-! ## Exempt addresses -/

/-- An address of the own host that connections to it usually come from. -/
def PeerAddress.Own (a : PeerAddress) : Prop := a = .v4 ⟨[127, 0, 0, 1]⟩ ∨ a = .v6 ⟨[0, 0, 0, 0, 0, 0, 0, 1]⟩

theorem PeerAddress.Own.loopback {a : PeerAddress} (h : a.Own) : a.Loopback := by
  rcases h with rfl | rfl
  · exact .inl ⟨0, 0, 1, rfl⟩
  · exact .inr rfl

namespace BlockList

/-- Asked to block an address, the block list says that it cannot be, and leaves the store alone. -/
def Unblockable (b : BlockList) (address : String) : Prop :=
  ∀ (reason : String) (σ : Type) (serve : σ → (c : Command) → c.Reply × σ) (s : σ),
    ((b.block address reason).run.run serve s).1 = .ok false ∧ (b.block address reason).run.exchanges serve s = []

theorem unblockable_iff {b : BlockList} {address : String} : b.Unblockable address ↔ b.isExempt address = true := by
  constructor
  · intro h
    by_contra he
    have hasked := (h "" Unit Plan.stalled ()).2
    unfold block at hasked
    rw [if_neg he] at hasked
    cases hasked
  · intro h reason σ serve s
    unfold block
    rw [if_pos h]
    exact ⟨rfl, rfl⟩

variable {a : PeerAddress}

theorem isBlank_toText (h : a.Valid) : isBlank a.toText = false := by
  have hblank : addressChars.any Text.isBlank = false := rfl
  unfold isBlank
  rw [← Bool.not_eq_true, List.isEmpty_iff]
  intro hnil
  obtain ⟨c, s, hs⟩ := List.exists_cons_of_ne_nil (PeerAddress.toText_ne_empty h)
  have hc : c ∈ a.toText.toList := by rw [hs]; exact List.mem_cons_self
  exact List.any_eq_false.1 hblank c (PeerAddress.mem_addressChars hc) (Text.isBlank_of_trimmed_eq_nil hnil c hc)

/-- The names of the own host, as far as they are in lower case. -/
def localNames : List String := ["127.0.0.1", "::1", "0:0:0:0:0:0:0:1", "localhost"]

/-- Of the names of the own host only two are the usual form of an address, and these of one address each. -/
theorem isLocalhost_toText_iff (h : a.Valid) : isLocalhost a.toText = true ↔ a.Own := by
  have hname : isLocalhost a.toText = true ↔ a.toText ∈ localNames := by
    unfold isLocalhost localNames
    rw [PeerAddress.lowered_toText]
    simp [or_assoc]
  rw [hname]
  constructor
  · intro hm
    have hs := PeerAddress.spells_toText h
    cases a with
    | v4 a =>
      have hshort : ∀ name ∈ localNames, (Ipv4.ofChars? name.toList).all (· == ⟨[127, 0, 0, 1]⟩) = true := by
        decide +kernel
      have ha := hshort _ hm
      unfold PeerAddress.Spells at hs
      rw [hs, Option.all_some, beq_iff_eq] at ha
      exact .inl (congrArg _ ha)
    | v6 a =>
      have hlong : ∀ name ∈ localNames,
          (Ipv6.ofChars? name.toList).all (· == ⟨[0, 0, 0, 0, 0, 0, 0, 1]⟩) = true := by decide +kernel
      have ha := hlong _ hm
      unfold PeerAddress.Spells at hs
      rw [hs, Option.all_some, beq_iff_eq] at ha
      exact .inr (congrArg _ ha)
  · rintro (rfl | rfl)
    · decide +kernel
    · decide +kernel

theorem isExempt_toText_iff {b : BlockList} (h : a.Valid) :
    b.isExempt a.toText = true ↔ b.blocksLocalhost = false ∧ a.Own := by
  unfold isExempt
  rw [isBlank_toText h, Bool.false_or, Bool.and_eq_true, isLocalhost_toText_iff h, Bool.not_eq_true', and_comm]

theorem isWatched_toText_eq_false_iff {b : BlockList} (h : a.Valid) : b.isWatched a.toText = false ↔
    b.enabled = false ∨ a.toText ∈ b.whitelist ∨ b.blocksLocalhost = false ∧ a.Own := by
  rw [← isExempt_toText_iff h, ← Bool.not_eq_true, isWatched_iff]
  unfold isWhitelisted
  cases b.enabled <;> cases b.isExempt a.toText <;> simp

end BlockList

/-! ## Requests that are left alone -/

namespace Gateway

open Traffic

/-- The watch asks the store nothing about a request, neither before nor after it is handed on, and the request ends
as what lies behind ends it. -/
def Untouched (s : Settings) (r : Request) : Prop :=
  ∀ (mark : String) (σ : Type) (serve : σ → (c : Command) → c.Reply × σ)
    (behind : Unit → σ → (Ending × List Event) × σ) (st : σ),
    Stage.exchanges serve behind (watch s.blockList s.trustsForwarded mark r) st = [] ∧
      (Stage.run serve behind (watch s.blockList s.trustsForwarded mark r) st).1.1 = (behind () st).1.1

variable {s : Settings} {r : Request}

theorem untouched_iff_of_known {address : String}
    (h : Credentials.clientAddress? s.trustsForwarded r = some address) :
    Untouched s r ↔ s.blockList.isWatched address = false := by
  constructor
  · intro hu
    by_contra hw
    rw [Bool.not_eq_false] at hw
    have hasked := (hu "" Unit Plan.stalled Stage.absent ()).1
    obtain ⟨next, hcheck, -⟩ := BlockList.check_of_watched hw
    rw [watch_of_known h, watchAddress, hcheck] at hasked
    cases hasked
  · intro hw mark σ serve behind st
    have hcheck := BlockList.check_of_not_watched hw
    have hallow : ((s.blockList.check address).run serve st).1 = .allow := by rw [hcheck]; rfl
    rw [watch_of_known h, run_watchAddress serve behind hallow, hcheck]
    obtain ⟨st', hall⟩ := exchanges_watchAddress serve behind mark hallow
    rw [hall, hcheck, BlockList.recordViolation_of_not_watched hw]
    refine ⟨?_, rfl⟩
    split <;> rfl

/-- A request of a client whose address is not forwarded is known by the address that it comes from. -/
theorem untouched_iff_of_peer {vars : Variables} (hs : Settings.read vars = .ok s) {a : PeerAddress} (ha : a.Valid)
    (hp : r.peer = some a) (hf : s.trustsForwarded = true → Credentials.forwardedFor? r.headers = none) :
    Untouched s r ↔ s.blockList.enabled = false ∨ a.toText ∈ vars.list "IP_WHITELIST" [] ∨
      s.blockList.blocksLocalhost = false ∧ a.Own := by
  obtain ⟨-, hblock, -⟩ := Settings.parts_of_read hs
  have hknown : Credentials.clientAddress? s.trustsForwarded r = some a.toText := by
    unfold Credentials.clientAddress?
    rw [hp]
    cases ht : s.trustsForwarded with
    | false => rfl
    | true => rw [if_pos rfl, hf ht]; rfl
  rw [untouched_iff_of_known hknown, BlockList.isWatched_toText_eq_false_iff ha,
    Settings.whitelist_of_readBlockList hblock]

/-- Which addresses are exempt, exactly. A request of a client whose address is not forwarded is left alone if the block
list is off, if the usual form of the address is an entry of the white list, or if it is a usual address of the own host
and that may not be blocked; and otherwise not, however else the white list spells the address. So nobody is left alone
that is neither on the white list nor on the own host. An address that is forwarded, where that is trusted, counts in
place of the other, as it is written. Only the usual addresses of the own host cannot be blocked. -/
theorem exempt_iff {vars : Variables} (hs : Settings.read vars = .ok s) {a : PeerAddress} (ha : a.Valid) :
    (∀ r : Request, r.peer = some a → (s.trustsForwarded = true → Credentials.forwardedFor? r.headers = none) →
      (Untouched s r ↔ s.blockList.enabled = false ∨ a.toText ∈ vars.list "IP_WHITELIST" [] ∨
        s.blockList.blocksLocalhost = false ∧ a.Own) ∧
      (s.blockList.enabled = true → Untouched s r → (∃ entry ∈ vars.list "IP_WHITELIST" [], a.Spells entry) ∨
        s.blockList.blocksLocalhost = false ∧ a.Loopback)) ∧
    (∀ (r : Request) (address : String), s.trustsForwarded = true →
      Credentials.forwardedFor? r.headers = some address →
      (Untouched s r ↔ s.blockList.isWatched address = false)) ∧
    (s.blockList.Unblockable a.toText ↔ s.blockList.blocksLocalhost = false ∧ a.Own) := by
  refine ⟨fun r hp hf => ?_, fun r address ht hf => ?_, ?_⟩
  · have hiff := untouched_iff_of_peer hs ha hp hf
    refine ⟨hiff, fun henabled hu => ?_⟩
    rcases hiff.1 hu with hoff | hlisted | ⟨hlocal, hown⟩
    · rw [henabled] at hoff
      cases hoff
    · exact .inl ⟨_, hlisted, PeerAddress.spells_toText ha⟩
    · exact .inr ⟨hlocal, hown.loopback⟩
  · apply untouched_iff_of_known
    unfold Credentials.clientAddress?
    rw [ht, if_pos rfl, hf]
    rfl
  · rw [BlockList.unblockable_iff, BlockList.isExempt_toText_iff ha]

/-- A gateway with a white list. -/
def listing (whitelist : String) : Variables
  | "UPSTREAM_URL" => some "http://upstream:9000"
  | "JWKS_URL" => some "http://keys/jwks.json"
  | "IP_WHITELIST" => some whitelist
  | _ => none

/-- A request for nothing but to come from an address. -/
def requestFrom (a : PeerAddress) : Request where
  method := "GET"
  target := ⟨none, "/".toList, none⟩
  headers := []
  peer := some a
  body := []

/-- An address of eight pieces, whose usual form is `2001:db8::1`. -/
def longAddress : PeerAddress := .v6 ⟨[0x2001, 0xdb8, 0, 0, 0, 0, 0, 1]⟩

/-- Another address of the own host. -/
def otherLoopback : PeerAddress := .v4 ⟨[127, 0, 0, 2]⟩

theorem valid_longAddress : longAddress.Valid := by
  refine ⟨rfl, ?_⟩
  decide

theorem valid_otherLoopback : otherLoopback.Valid := by
  refine ⟨rfl, ?_⟩
  decide

theorem read_listing (whitelist : String)
    (h : (Settings.read (listing whitelist)).map (fun s =>
      (s.blockList.enabled, s.blockList.blocksLocalhost, s.trustsForwarded)) = .ok (true, false, false)) :
    ∃ s, Settings.read (listing whitelist) = .ok s ∧ s.blockList.enabled = true ∧ s.blockList.blocksLocalhost = false ∧
      s.trustsForwarded = false := by
  obtain ⟨s, hs, hparts⟩ := exists_of_map_eq_ok h
  simp only [Prod.mk.injEq] at hparts
  exact ⟨s, hs, hparts⟩

/-- Its usual form on the white list exempts an address. -/
theorem exempt_iff_listed : ∃ s, Settings.read (listing "10.0.0.1, 2001:db8::1") = .ok s ∧ longAddress.Valid ∧
    Untouched s (requestFrom longAddress) := by
  obtain ⟨s, hs, -⟩ := read_listing "10.0.0.1, 2001:db8::1" (by decide +kernel)
  obtain ⟨hpeer, -⟩ := exempt_iff hs valid_longAddress
  refine ⟨s, hs, valid_longAddress, (hpeer (requestFrom longAddress) rfl fun _ => rfl).1.2 (.inr (.inl ?_))⟩
  decide +kernel

/-- Capitals on the white list do not exempt the address that they spell, nor is an own address exempt that connections
do not usually come from: both are looked up, and the latter can be blocked. -/
theorem otherSpelling_not_exempt : ∃ s, Settings.read (listing "2001:DB8::1") = .ok s ∧
    s.blockList.blocksLocalhost = false ∧ "2001:DB8::1" ∈ (listing "2001:DB8::1").list "IP_WHITELIST" [] ∧
    longAddress.Spells "2001:DB8::1" ∧ ¬ Untouched s (requestFrom longAddress) ∧
    otherLoopback.Loopback ∧ ¬ Untouched s (requestFrom otherLoopback) ∧
    ¬ s.blockList.Unblockable otherLoopback.toText := by
  obtain ⟨s, hs, henabled, hlocal, -⟩ := read_listing "2001:DB8::1" (by decide +kernel)
  have hlong : ¬ longAddress.Own := by
    unfold PeerAddress.Own
    decide
  have hother : ¬ otherLoopback.Own := by
    unfold PeerAddress.Own
    decide
  refine ⟨s, hs, hlocal, by decide +kernel, by unfold longAddress PeerAddress.Spells; decide +kernel, ?_,
    .inl ⟨0, 0, 2, rfl⟩, ?_, ?_⟩
  · rw [untouched_iff_of_peer hs valid_longAddress rfl fun _ => rfl, henabled]
    simp only [Bool.true_eq_false, false_or, hlong, and_false, or_false]
    decide +kernel
  · rw [untouched_iff_of_peer hs valid_otherLoopback rfl fun _ => rfl, henabled]
    simp only [Bool.true_eq_false, false_or, hother, and_false, or_false]
    decide +kernel
  · rw [BlockList.unblockable_iff, BlockList.isExempt_toText_iff valid_otherLoopback]
    simp [hother]

end Gateway

end Tollgate
