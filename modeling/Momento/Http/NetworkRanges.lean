/-
  Momento.Http.NetworkRanges

  **A RANGE MEANS WHAT WAS TYPED.**  A network range is stored as PostgreSQL's `cidr`,
  which refuses a value with bits right of its mask; the form does not ask for one
  without.  `normalizeCIDR` clears these bits and nothing else: an IPv4-mapped range
  stays a range of IPv6, although `IPNet.String` would write it as IPv4.
-/
import Momento.Foundation.IpNetwork

namespace Momento.Http

open Foundation.IpText Foundation.IpNetwork

/-! ## §1. The handler's text. -/

variable (quote : String → String)

/-- `normalizeCIDR`; `quote` writes a text for the one message that shows it quoted. -/
def normalizeCIDR (text : String) : Except String String :=
  match parseCIDR text with
  | .error err => .error err
  | .ok (ip, network) =>
    let (ones, bits) := maskSize network.mask
    if bits = 128 ∧ to4 ip ≠ [] then
      match addrFromSlice (to16 network.ip) with
      | none => .error ("cidr " ++ quote text ++ ": cannot render masked address")
      | some addr => .ok (String.ofList (prefixString addr ones))
    else .ok (String.ofList network.string)

/-! ## §2. What is stored. -/

/-- `ParseCIDR` decides alone what is refused, and with which message. -/
theorem normalizeCIDR_error {text message : String} (h : parseCIDR text = .error message) :
    normalizeCIDR quote text = .error message := by
  rw [normalizeCIDR, h]

/-- **The network of the prefix, in the family it was written in.** -/
theorem normalizeCIDR_of_denotes {text : String} {p : Prefix} (h : Denotes text.toList p) :
    normalizeCIDR quote text = .ok (String.ofList p.network.render) := by
  rw [normalizeCIDR, parseCIDR_of_denotes h]
  dsimp only
  rw [maskSize_ipNet]
  dsimp only
  by_cases hmapped : p.family.size * 8 = 128 ∧ to4 p.address16 ≠ []
  · -- the masked address is written by `netip`, which keeps the family
    obtain ⟨hbits, hip⟩ := hmapped
    have hfamily : p.family = .v6 := by
      cases hfamily : p.family with
      | v4 => rw [hfamily] at hbits; exact absurd hbits (by decide)
      | v6 => rfl
    have h16 : p.ipNet.ip.length = 16 := by
      have hlength := p.network.length_address
      have hsize : p.network.family.size = 16 := by
        show p.family.size = 16
        rw [hfamily]
        rfl
      rwa [hsize] at hlength
    have hones : ¬8 * Family.v6.size < p.ones := by
      have hle := p.ones_le
      rw [hfamily] at hle
      omega
    have haddr : addrFromSlice (to16 p.ipNet.ip) = some ⟨.v6, p.network.address, []⟩ := by
      rw [to16, if_neg (by omega), if_pos h16, addrFromSlice, if_neg (by omega), if_pos h16]
      rfl
    have hnetwork : p.network.family = .v6 := hfamily
    rw [if_pos ⟨hbits, hip⟩, haddr]
    dsimp only
    rw [prefixString, if_neg hones, Prefix.render, hnetwork]
    rfl
  · -- `IPNet.String` folds nothing here
    have hplain : p.family = .v4 ∨ is4In6 p.address = false := by
      cases hfamily : p.family with
      | v4 => exact Or.inl rfl
      | v6 =>
        have hnil : to4 p.address16 = [] := by
          by_contra hne
          exact hmapped ⟨by rw [hfamily]; rfl, hne⟩
        exact Or.inr ((to4_address16 p).mp hnil).2
    rw [if_neg hmapped, string_ipNet hplain]

/-- **Normalisation keeps the meaning.**  A text that is accepted denotes one prefix,
of the family its colons tell; the answer denotes a prefix of that family with the
same addresses and no bit right of its mask, and is its own normal form. -/
theorem normalizeCIDR_exact {text : String} {ip : List UInt8} {network : Network}
    (h : parseCIDR text = .ok (ip, network)) :
    ∃ (written normal : Prefix) (out : String),
      (Denotes text.toList written ∧ (written.family = .v6 ↔ ':' ∈ text.toList))
        ∧ normalizeCIDR quote text = .ok out
        ∧ (Denotes out.toList normal ∧ (normal.family = .v6 ↔ ':' ∈ out.toList))
        ∧ normal.family = written.family
        ∧ normal.ones = written.ones
        ∧ normal.addresses = {a | a.length = written.family.size
            ∧ ∀ i < written.ones, bit a i = bit written.address i}
        ∧ normal.HostBitsClear
        ∧ normalizeCIDR quote out = .ok out := by
  obtain ⟨p, hp⟩ := denotes_of_parseCIDR h
  have hout : Denotes (String.ofList p.network.render).toList p.network := by
    rw [String.toList_ofList]
    exact denotes_render p.network
  refine ⟨p, p.network, String.ofList p.network.render, ⟨hp, hp.colon⟩,
    normalizeCIDR_of_denotes quote hp, ⟨hout, hout.colon⟩, rfl, rfl, p.addresses_network,
    p.hostBitsClear_network, ?_⟩
  -- the network has no host bits left to clear
  rw [normalizeCIDR_of_denotes quote hout, p.network_network]

/-- An IPv4-mapped range with host bits stays one of IPv6. -/
theorem normalizeCIDR_exact_mapped :
    parseCIDR "::ffff:10.1.2.3/120" = .ok (v4InV6 ++ [10, 1, 2, 3],
        ⟨v4InV6 ++ [10, 1, 2, 0], List.replicate 15 0xff ++ [0]⟩)
      ∧ ∃ (written normal : Prefix) (out : String),
        (Denotes "::ffff:10.1.2.3/120".toList written
          ∧ (written.family = .v6 ↔ ':' ∈ "::ffff:10.1.2.3/120".toList))
        ∧ normalizeCIDR (fun s => s) "::ffff:10.1.2.3/120" = .ok out
        ∧ (Denotes out.toList normal ∧ (normal.family = .v6 ↔ ':' ∈ out.toList))
        ∧ normal.family = written.family
        ∧ normal.ones = written.ones
        ∧ normal.addresses = {a | a.length = written.family.size
            ∧ ∀ i < written.ones, bit a i = bit written.address i}
        ∧ normal.HostBitsClear
        ∧ normalizeCIDR (fun s => s) out = .ok out :=
  have haccepted : parseCIDR "::ffff:10.1.2.3/120" = .ok (v4InV6 ++ [10, 1, 2, 3],
      ⟨v4InV6 ++ [10, 1, 2, 0], List.replicate 15 0xff ++ [0]⟩) := by rfl
  ⟨haccepted, normalizeCIDR_exact (fun s => s) haccepted⟩

example : normalizeCIDR (fun s => s) "::ffff:10.1.2.3/120" = .ok "::ffff:10.1.2.0/120" := by rfl

end Momento.Http
