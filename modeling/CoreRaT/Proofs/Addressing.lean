import Mathlib.Data.List.Nodup
import CoreRaT.Spec.Transports

/-!
# `CoreRaT.Proofs.Addressing`: the endpoints of mailboxes in `Mode::Network`

The port of a mailbox is made of the low 15 bits of its id, and the address comes from the system
id. So two mailboxes of a host have one endpoint if and only if their ids have the same low 15 bits
(`endpoint_eq_iff`), which the class and the top bit of the instance are not part of. Mailboxes
whose low 15 bits differ can all be bound, and get what is sent to them (`endpoints_of_host`).

The low 15 bits are at most 32767, and the ports end 23535 above the base port. Beyond that the sum
wraps around.
-/

set_option autoImplicit false

namespace CoreRaT.Spec

open EvlNetworkConfig

namespace EvlNetworkConfig

/-- The bits of an id that its port depends on. -/
def portBits (id : MailboxId) : MailboxId := id &&& 0x7FFF

theorem toNat_portBits (id : MailboxId) : (portBits id).toNat = id.toNat % 2 ^ 15 := by
  rw [portBits, UInt32.toNat_and]
  exact Nat.and_two_pow_sub_one_eq_mod _ 15

theorem toNat_portFor (id : MailboxId) :
    (portFor id).toNat = (42000 + (portBits id).toNat) % 2 ^ 16 := by
  have hlt : (portBits id).toNat < 2 ^ 15 := by
    rw [toNat_portBits]
    omega
  rw [portFor, ← portBits, UInt32.toNat_toUInt16, UInt32.toNat_add]
  show (42000 + (portBits id).toNat) % 2 ^ 32 % 2 ^ 16 = _
  omega

/-- Ids have one port if and only if they agree on these bits. -/
theorem portFor_eq_iff (a b : MailboxId) : portFor a = portFor b ↔ portBits a = portBits b := by
  rw [← UInt16.toNat_inj, ← UInt32.toNat_inj, toNat_portFor, toNat_portFor, toNat_portBits,
    toNat_portBits]
  omega

/-- The highest bits with a port that is in 16 bits. -/
def maxPortBits : MailboxId := 23535

theorem toNat_portFor_of_le {id : MailboxId} (h : portBits id ≤ maxPortBits) :
    (portFor id).toNat = 42000 + (portBits id).toNat := by
  have hle : (portBits id).toNat ≤ 23535 := UInt32.le_iff_toNat_le.mp h
  rw [toNat_portFor]
  omega

theorem portFor_ne_zero {id : MailboxId} (h : portBits id ≤ maxPortBits) : portFor id ≠ 0 := by
  intro hzero
  have hnat := toNat_portFor_of_le h
  rw [hzero, UInt16.toNat_zero] at hnat
  omega

end EvlNetworkConfig

/-! ### Sending -/

/-- The address that a route table has for the host of `dest`. -/
def routeAddr (routes : List NetworkRouteEntry) (dest : MailboxId) : Option UInt32 :=
  (routes.find? fun r => r.valid && r.systemId == systemIdOf dest).map NetworkRouteEntry.ipAddr

/-- The endpoint to which `send_oob_udp` sends. -/
theorem sendOobUdp_eq_some_iff (routes : List NetworkRouteEntry) (data : List UInt8)
    (dest : MailboxId) (e : Endpoint) :
    (sendOobUdp routes true data dest).2 = some (e, data) ↔
      ∃ ip, routeAddr routes dest = some ip ∧ e = ⟨ip, portFor dest⟩ := by
  unfold sendOobUdp routeAddr
  cases routes.find? fun r => r.valid && r.systemId == systemIdOf dest with
  | none => simp
  | some r => simp [eq_comm]

/-- The routes depend on the system id. -/
theorem routeAddr_congr (routes : List NetworkRouteEntry) {a b : MailboxId}
    (h : systemIdOf a = systemIdOf b) : routeAddr routes a = routeAddr routes b := by
  rw [routeAddr, routeAddr, h]

/-- Mailboxes of one host have one endpoint if and only if their ids have the same low 15 bits. -/
theorem endpoint_eq_iff (routes : List NetworkRouteEntry) {a b : MailboxId}
    (hsystem : systemIdOf a = systemIdOf b) {data data' : List UInt8} {e e' : Endpoint}
    (he : (sendOobUdp routes true data a).2 = some (e, data))
    (he' : (sendOobUdp routes true data' b).2 = some (e', data')) :
    e = e' ↔ portBits a = portBits b := by
  obtain ⟨ip, hip, rfl⟩ := (sendOobUdp_eq_some_iff routes data a e).mp he
  obtain ⟨ip', hip', rfl⟩ := (sendOobUdp_eq_some_iff routes data' b e').mp he'
  rw [routeAddr_congr routes hsystem, hip'] at hip
  rw [Option.some.inj hip, Endpoint.mk.injEq, portFor_eq_iff]
  simp

/-! ### Binding -/

namespace OobHost

/-- A host without mailboxes. -/
def empty (ip : UInt32) : OobHost where
  ip := ip
  bound := fun _ => none

theorem createOobSocket_of_free {h : OobHost} {id : MailboxId} (kernelPort : UInt16)
    (hbits : portBits id ≤ maxPortBits) (hfree : h.bound (portFor id) = none) :
    h.createOobSocket true kernelPort id
      = some { h with bound := Function.update h.bound (portFor id) (some id) } := by
  simp only [createOobSocket, bind, portFor_ne_zero hbits, hfree, Bool.not_true, Bool.false_eq_true,
    ↓reduceIte]

/-- A socket that is bound stays bound when others are. -/
theorem bindAll_keeps (kernelPort : UInt16) {ids : List MailboxId} {h h' : OobHost}
    (hbind : h.bindAll kernelPort ids = some h') {port : UInt16} {a : MailboxId}
    (hbound : h.bound port = some a) : h'.bound port = some a := by
  induction ids generalizing h with
  | nil =>
    cases hbind
    exact hbound
  | cons id ids ih =>
    simp only [bindAll] at hbind
    split at hbind
    · cases hbind
    · rename_i h₁ hcreate
      refine ih hbind ?_
      simp only [createOobSocket, bind, Bool.not_true, Bool.false_eq_true, if_false] at hcreate
      split at hcreate
      · cases hcreate
      · -- `::bind` fails for a port that is taken.
        rename_i hfree
        cases hcreate
        have hne : port ≠ if portFor id = 0 then kernelPort else portFor id := by
          rintro rfl
          rw [hfree] at hbound
          cases hbound
        simpa only [Function.update_of_ne hne] using hbound

/-- The port of a mailbox whose socket has been created. -/
theorem bound_of_createOobSocket {h h' : OobHost} {kernelPort : UInt16} {id : MailboxId}
    (hcreate : h.createOobSocket true kernelPort id = some h') (hport : portFor id ≠ 0) :
    h'.bound (portFor id) = some id := by
  simp only [createOobSocket, bind, hport, Bool.not_true, Bool.false_eq_true, if_false] at hcreate
  split at hcreate
  · cases hcreate
  · cases hcreate
    exact Function.update_self ..

/-- Mailboxes with different ports, none of them taken, are all bound. -/
theorem bindAll_of_free (kernelPort : UInt16) {ids : List MailboxId} {h : OobHost}
    (hbits : ∀ id ∈ ids, portBits id ≤ maxPortBits) (hnodup : (ids.map portBits).Nodup)
    (hfree : ∀ id ∈ ids, h.bound (portFor id) = none) :
    ∃ h', h.bindAll kernelPort ids = some h' ∧ h'.ip = h.ip ∧
      ∀ port a, h'.bound port = some a ↔ (a ∈ ids ∧ portFor a = port) ∨ h.bound port = some a := by
  induction ids generalizing h with
  | nil => exact ⟨h, rfl, rfl, fun port a => by simp⟩
  | cons id ids ih =>
    rw [List.map_cons, List.nodup_cons] at hnodup
    have hfirst := createOobSocket_of_free kernelPort (hbits id (by simp)) (hfree id (by simp))
    -- The port is not that of a later mailbox.
    have hne : ∀ id' ∈ ids, portFor id' ≠ portFor id := by
      intro id' hmem heq
      exact hnodup.1 (List.mem_map.mpr ⟨id', hmem, (portFor_eq_iff id' id).mp heq⟩)
    obtain ⟨h', hbind, hip, hbound⟩ :=
      ih (h := { h with bound := Function.update h.bound (portFor id) (some id) })
        (fun id' hmem => hbits id' (by simp [hmem])) hnodup.2 fun id' hmem => by
          show Function.update h.bound (portFor id) (some id) (portFor id') = none
          rw [Function.update_of_ne (hne id' hmem)]
          exact hfree id' (by simp [hmem])
    refine ⟨h', ?_, hip, fun port a => ?_⟩
    · rw [bindAll, hfirst]
      exact hbind
    · rw [hbound, List.mem_cons]
      by_cases hport : port = portFor id
      · subst hport
        simp only [Function.update_self, hfree id (by simp), Option.some.injEq, reduceCtorEq,
          or_false]
        constructor
        · rintro (⟨hmem, heq⟩ | rfl)
          · exact absurd heq (hne a hmem)
          · exact ⟨Or.inl rfl, rfl⟩
        · rintro ⟨rfl | hmem, heq⟩
          · exact Or.inr rfl
          · exact absurd heq (hne a hmem)
      · simp only [Function.update_of_ne hport]
        constructor
        · rintro (⟨hmem, heq⟩ | hbefore)
          · exact Or.inl ⟨Or.inr hmem, heq⟩
          · exact Or.inr hbefore
        · rintro (⟨rfl | hmem, heq⟩ | hbefore)
          · exact absurd heq.symm hport
          · exact Or.inl ⟨hmem, heq⟩
          · exact Or.inr hbefore

end OobHost

/-! ### Mailboxes of a host -/

/-- Mailboxes of one system have different ports and different endpoints if and only if the low 15
bits of their ids differ. A port is the base port and these bits where that is a 16-bit number. With
such ports, mailboxes with different low 15 bits can all be bound in any order, and each gets the
messages to ids with its low 15 bits. Among the ids of these mailboxes that is its own. -/
theorem endpoints_of_host :
    (∀ a b, systemIdOf a = systemIdOf b →
      (portFor a ≠ portFor b ↔ portBits a ≠ portBits b) ∧
      ∀ routes data data' e e', (sendOobUdp routes true data a).2 = some (e, data) →
        (sendOobUdp routes true data' b).2 = some (e', data') →
        (e ≠ e' ↔ portBits a ≠ portBits b)) ∧
    (∀ id, portBits id ≤ maxPortBits →
      kOobBasePort ≤ portFor id ∧ (portFor id).toNat = kOobBasePort.toNat + (portBits id).toNat) ∧
    ∀ kernelPort ip ids, (∀ id ∈ ids, portBits id ≤ maxPortBits) → (ids.map portBits).Nodup →
      ∃ host, (OobHost.empty ip).bindAll kernelPort ids = some host ∧
        ∀ routes data dest, routeAddr routes dest = some ip →
          ∃ e, (sendOobUdp routes true data dest).2 = some (e, data) ∧
            ∀ a ∈ ids, (host.receiver e = some a ↔ portBits dest = portBits a) ∧
              (dest ∈ ids → (host.receiver e = some a ↔ dest = a)) := by
  refine ⟨fun a b hsystem => ⟨not_congr (portFor_eq_iff a b), ?_⟩, fun id hbits => ?_, ?_⟩
  · intro routes data data' e e' he he'
    exact not_congr (endpoint_eq_iff routes hsystem he he')
  · have hport := toNat_portFor_of_le hbits
    refine ⟨UInt16.le_iff_toNat_le.mpr ?_, hport⟩
    rw [hport]
    exact Nat.le_add_right _ _
  · intro kernelPort ip ids hbits hnodup
    obtain ⟨host, hbind, hip, hbound⟩ :=
      OobHost.bindAll_of_free kernelPort (h := OobHost.empty ip) hbits hnodup fun _ _ => rfl
    refine ⟨host, hbind, fun routes data dest hroute => ?_⟩
    refine ⟨⟨ip, portFor dest⟩,
      (sendOobUdp_eq_some_iff routes data dest _).mpr ⟨ip, hroute, rfl⟩, ?_⟩
    intro a ha
    have hreceiver : host.receiver ⟨ip, portFor dest⟩ = some a ↔ portBits dest = portBits a := by
      have hthis : host.receiver ⟨ip, portFor dest⟩ = host.bound (portFor dest) := if_pos hip.symm
      have hempty : (OobHost.empty ip).bound (portFor dest) ≠ some a := nofun
      rw [hthis, hbound, or_iff_left hempty, and_iff_right ha, eq_comm, portFor_eq_iff]
    refine ⟨hreceiver, fun hdest => hreceiver.trans ⟨fun heq => ?_, fun heq => by rw [heq]⟩⟩
    exact List.inj_on_of_nodup_map hnodup hdest ha heq

/-- A message to the first of two mailboxes. -/
theorem endpoints_of_host_two :
    ∃ host, (OobHost.empty 0x0A0A0A0B).bindAll 50000 [0x01012000, 0x01012001] = some host ∧
      ∃ e, (sendOobUdp [⟨1, 0x0A0A0A0B, true⟩] true [1, 2] 0x01012000).2 = some (e, [1, 2]) ∧
        host.receiver e = some 0x01012000 := by
  have hbits : ∀ id ∈ [0x01012000, 0x01012001], portBits id ≤ maxPortBits := by
    intro id hid
    rcases List.mem_pair.mp hid with rfl | rfl
    · decide
    · decide
  obtain ⟨host, hbind, hsend⟩ := endpoints_of_host.2.2 50000 0x0A0A0A0B
    [0x01012000, 0x01012001] hbits (by decide)
  obtain ⟨e, he, hreceiver⟩ := hsend [⟨1, 0x0A0A0A0B, true⟩] [1, 2] 0x01012000 (by decide)
  exact ⟨host, hbind, e, he, ((hreceiver 0x01012000 (by decide)).2 (by decide)).mpr rfl⟩

/-- Two mailboxes that differ in their class have one endpoint, and cannot both be bound. The port
of a third one wraps around to 0. -/
theorem ids_share_endpoint :
    let routes : List NetworkRouteEntry := [⟨12, 0x0A0A0A0B, true⟩]
    systemIdOf 0x0C010001 = systemIdOf 0x0C020001 ∧
      (sendOobUdp routes true [1] 0x0C010001).2 = some (⟨0x0A0A0A0B, 42001⟩, [1]) ∧
      (sendOobUdp routes true [1] 0x0C020001).2 = some (⟨0x0A0A0A0B, 42001⟩, [1]) ∧
      ((OobHost.empty 0x0A0A0A0B).bindAll 50000 [0x0C010001, 0x0C020001]).isNone = true ∧
      portFor 0x0C005BF0 = 0 := by
  decide

end CoreRaT.Spec
