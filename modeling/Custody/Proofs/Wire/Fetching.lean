import Custody.Proofs.Keeper
import Custody.Proofs.Service.Requests
import Custody.Proofs.Vault.Damage
import Custody.Proofs.Vault.Reopening
import Custody.Proofs.Wire.Message
import Custody.Proofs.Wire.Stream

/-!
What was stored can be fetched. The frame that returns a key is no longer than the frame that stored it, whatever
numbers the two carry, so no limit lets the one through and stops the other.
-/

namespace Custody

open Json (Codec Schema Tagged)

theorem Bytes.length_ofNat_pos (n : Nat) : 1 ≤ (ofNat n).length := by
  obtain ⟨d, more, made, -⟩ := Digit.ofNat_eq_cons n
  rw [ofNat, made]
  exact Nat.succ_pos _

theorem Bytes.length_ofNat_word (n : UInt64) : (ofNat n.toNat).length ≤ 20 := by
  have small : n.toNat < 10 ^ (19 + 1) := Nat.lt_trans n.toNat_lt (by decide)
  rw [ofNat, Digit.bytes, List.length_map]
  exact Digit.length_ofNat small

theorem Json.two_le_length_renderText (s : String) : 2 ≤ (renderText s).length := by
  simp only [renderText, List.length_append, List.length_cons]
  omega

theorem Json.two_le_length_record (members : List (String × Json)) : 2 ≤ (record members).render.length := by
  cases members with
  | nil => exact Nat.le_refl 2
  | cons m members =>
    have name := two_le_length_renderText m.1
    simp only [record, List.map_cons, render, renderString, List.length_append, List.length_cons]
    omega

theorem Json.Codec.length_render_word64 (n : UInt64) :
    (word64.write n).render.length = (Bytes.ofNat n.toNat).length := by
  change (Numeral.ofNat n.toNat).render.length = _
  rw [Numeral.render_ofNat]

theorem KeyId.render_write (id : KeyId) : (codec.write id).render = Json.renderText id.text := rfl

namespace RequestFrame

variable (p : UInt64) (id : KeyId)

theorem length_encode_put (material : Bytes) (metadata : Metadata) :
    (codec.encode ⟨p, .put id material metadata⟩).length =
      68 + (Bytes.ofNat p.toNat).length + (Json.renderText id.text).length + 4 * ((material.length + 2) / 3) +
        (Codec.dictionary.write metadata).render.length := by
  have words : (Json.renderText "id").length = 4 ∧ (Json.renderText "request").length = 9 ∧
      (Json.renderText "verb").length = 6 ∧ (Json.renderText "PUT").length = 5 ∧
      (Json.renderText "args").length = 6 ∧ (Json.renderText "key").length = 5 ∧
      (Json.renderText "metadata").length = 10 := by decide
  simp only [Codec.encode, codec, schema, Schema.codec, Schema.members, Request.codec, Request.write,
    Request.tagged, Tagged.fields, Request.putSchema, Request.verb, Json.record, List.map_cons, List.map_nil,
    Json.render, Json.renderMembers, Json.text, Json.renderString, List.length_append, List.length_cons,
    List.length_nil, Codec.length_render_word64, Codec.length_render_base64, KeyId.render_write, words]
  omega

theorem length_encode_get :
    (codec.encode ⟨p, .get id⟩).length =
      47 + (Bytes.ofNat p.toNat).length + (Json.renderText id.text).length := by
  have words : (Json.renderText "id").length = 4 ∧ (Json.renderText "request").length = 9 ∧
      (Json.renderText "verb").length = 6 ∧ (Json.renderText "GET").length = 5 ∧
      (Json.renderText "args").length = 6 := by decide
  simp only [Codec.encode, codec, schema, Schema.codec, Schema.members, Request.codec, Request.write,
    Request.tagged, Tagged.fields, Request.nameSchema, Request.verb, Json.record, List.map_cons, List.map_nil,
    Json.render, Json.renderMembers, Json.text, Json.renderString, List.length_append, List.length_cons,
    List.length_nil, Codec.length_render_word64, KeyId.render_write, words]
  omega

end RequestFrame

theorem ResponseFrame.length_encode_key (g : UInt64) (material : Bytes) :
    (codec.encode ⟨g, .key material⟩).length =
      53 + (Bytes.ofNat g.toNat).length + 4 * ((material.length + 2) / 3) := by
  have words : (Json.renderText "id").length = 4 ∧ (Json.renderText "response").length = 10 ∧
      (Json.renderText "status").length = 8 ∧ (Json.renderText "key").length = 5 ∧
      (Json.renderText "data").length = 6 := by decide
  simp only [Codec.encode, codec, schema, Schema.codec, Schema.members, Response.codec, Response.write,
    Response.tagged, Tagged.fields, Response.one, Json.record, List.map_cons, List.map_nil,
    Json.render, Json.renderMembers, Json.text, Json.renderString, List.length_append, List.length_cons,
    List.length_nil, Codec.length_render_word64, Codec.length_render_base64, words]
  omega

theorem length_lt_capacity_of_returned {material : Bytes} (g : UInt64)
    (small : (ResponseFrame.codec.encode ⟨g, .key material⟩).length < Frame.most) :
    material.length < Sealing.capacity := by
  rw [ResponseFrame.length_encode_key] at small
  have room : Frame.most ≤ Sealing.capacity := by decide
  omega

/-- In the worst case a name of one byte is stored under a number of one digit and fetched under one of twenty. -/
theorem lengths_le_put (id : KeyId) (material : Bytes) (metadata : Metadata) (p g : UInt64) :
    let stored := (RequestFrame.codec.encode ⟨p, .put id material metadata⟩).length
    (RequestFrame.codec.encode ⟨g, .get id⟩).length ≤ stored ∧
      (ResponseFrame.codec.encode ⟨g, .key material⟩).length ≤ stored := by
  have one := Bytes.length_ofNat_pos p.toNat
  have twenty := Bytes.length_ofNat_word g
  have name := Json.two_le_length_renderText id.text
  have labels : 2 ≤ (Codec.dictionary.write metadata).render.length := Json.two_le_length_record _
  rw [RequestFrame.length_encode_put, RequestFrame.length_encode_get, ResponseFrame.length_encode_key]
  constructor
  · omega
  · omega

namespace Stream

variable {α : Type} {c : Codec α} {a : α} {sender receiver : Stream} {near far : Nat}

/-- What one end sends of a message reaches the other end as this message. -/
def Passes (c : Codec α) (sender receiver : Stream) (a : α) : Prop :=
  ∃ sent received, sender.send c a = (.ok (), sent) ∧
    (receiver.feed sent.collect.1).receive c = (.message a, received)

theorem Passes.sent (left : sender.Idle near) (passes : sender.Passes c receiver a) : (c.encode a).length ≤ near := by
  obtain ⟨sent, -, accepted, -⟩ := passes
  by_contra big
  rw [send_refused left.outlet (left.bound ▸ not_le.mp big)] at accepted
  cases accepted

theorem Passes.received (left : sender.Idle near) (right : receiver.Idle far) (small : (c.encode a).length < Frame.most)
    (passes : sender.Passes c receiver a) : (c.encode a).length ≤ far := by
  have fits := passes.sent left
  obtain ⟨sent, received, accepted, arrived⟩ := passes
  obtain ⟨t, rest, same, collected, -⟩ := left.send fits
  cases same.symm.trans accepted
  by_contra big
  -- a head that announces too much is refused
  have front : Frame.front far (receiver.feed (Frame.encode (c.encode a))).inlet.ahead = .tooBig := by
    rw [feed, Inlet.ahead_feed, right.ahead, List.nil_append, Frame.encode, Frame.front_head small,
      if_pos (not_le.mp big)]
  obtain ⟨j, refused⟩ := Inlet.receive_tooBig (right.inlet.feed _) front
  rw [collected] at arrived
  simp only [Stream.receive, feed, right.bound] at arrived refused
  rw [refused] at arrived
  cases arrived

theorem passes_iff (left : sender.Idle near) (right : receiver.Idle far) (small : (c.encode a).length < Frame.most)
    (back : c.decode (c.encode a) = .ok a) :
    sender.Passes c receiver a ↔ (c.encode a).length ≤ near ∧ (c.encode a).length ≤ far := by
  constructor
  · intro passes
    exact ⟨passes.sent left, passes.received left right small⟩
  · rintro ⟨fits, short⟩
    obtain ⟨t, rest, sent, collected, -⟩ := left.send fits
    obtain ⟨r, received, -⟩ := right.receive short small back
    refine ⟨t, r, sent, ?_⟩
    rw [collected]
    exact received

end Stream

theorem Service.handle_put (s : Service) (supply : Supply) (h : Holdings) {id : KeyId} {material : Bytes}
    {metadata : Metadata} (stored : Vault.refusal? material = none) :
    ∃ replaced, (s.handle supply h (.put id material metadata)).1 = .stored replaced := by
  refine ⟨h.vault.contains id, ?_⟩
  simp only [handle, perform_put, stored]

theorem Service.get_after_put (s : Service) (supply later : Supply) (h : Holdings) {id : KeyId} {material : Bytes}
    {metadata : Metadata} (stored : Vault.refusal? material = none) :
    let kept := (s.handle supply h (.put id material metadata)).2
    s.handle later kept (.get id) = (.key material, kept) := by
  intro kept
  have vault : kept.vault = h.vault.keep (h.vault.entryOf id material metadata supply.draw) := by
    rw [Service.handle_vault]
    simp only [Vault.after, Request.operation?, Vault.apply_put, stored]
  have got : kept.vault.get id = .ok material := by
    rw [vault]
    exact Vault.get_keep _ _ (Vault.refusal?_eq_none_iff.mp stored).2 _ _
  simp only [handle, perform, got]
  rfl

/-- A key that can be stored over a connection can be returned over it: whatever the limits of the two sides and the
numbers of the frames, where the frame that stores it passes the cipher has room for it and the frames that ask for it
and return it pass too, and what the server returns is what was stored. -/
theorem stored_keys_return (id : KeyId) (material : Bytes) (metadata : Metadata) (p g : UInt64) :
    let put : RequestFrame := ⟨p, .put id material metadata⟩
    let get : RequestFrame := ⟨g, .get id⟩
    let key : ResponseFrame := ⟨g, .key material⟩
    (∀ limit, (RequestFrame.codec.encode put).length ≤ limit →
      (RequestFrame.codec.encode get).length ≤ limit ∧ (ResponseFrame.codec.encode key).length ≤ limit) ∧
    (∀ (client server : Stream) (near far : Nat), client.Idle near → server.Idle far → near < Frame.most →
      client.Passes RequestFrame.codec server put → material.length < Sealing.capacity ∧
        client.Passes RequestFrame.codec server get ∧ server.Passes ResponseFrame.codec client key) ∧
    ∀ (s : Service) (supply later : Supply) (held : Holdings), material ≠ [] → material.length < Sealing.capacity →
      let (answer, kept) := s.handle supply held put.request
      (∃ replaced, answer = .stored replaced) ∧ s.handle later kept get.request = (key.response, kept) := by
  intro put get key
  obtain ⟨asked, returned⟩ := lengths_le_put id material metadata p g
  refine ⟨fun limit fits => ⟨Nat.le_trans asked fits, Nat.le_trans returned fits⟩, ?_, ?_⟩
  · intro client server near far left right tellable passes
    have fits := passes.sent left
    have small : (RequestFrame.codec.encode put).length < Frame.most := Nat.lt_of_le_of_lt fits tellable
    have short := passes.received left right small
    have within := length_lt_capacity_of_returned g (Nat.lt_of_le_of_lt returned small)
    refine ⟨within, ?_, ?_⟩
    · refine (Stream.passes_iff left right (Nat.lt_of_le_of_lt asked small) ?_).mpr ?_
      · exact (RequestFrame.codec_faithful get).decode_encode
      · exact ⟨Nat.le_trans asked fits, Nat.le_trans asked short⟩
    · refine (Stream.passes_iff right left (Nat.lt_of_le_of_lt returned small) ?_).mpr ?_
      · exact (ResponseFrame.codec_faithful (f := key) trivial).decode_encode
      · exact ⟨Nat.le_trans returned short, Nat.le_trans returned fits⟩
  · intro s supply later held some within
    have stored := Vault.refusal?_eq_none_iff.mpr ⟨some, within⟩
    exact ⟨s.handle_put supply held stored, s.get_after_put supply later held stored⟩

/-- The longest answer to the shortest request: one byte is to spare. -/
theorem stored_keys_return_tight :
    let put : RequestFrame := ⟨1, .put .plain [0] .empty⟩
    let get : RequestFrame := ⟨18446744073709551615, .get .plain⟩
    let key : ResponseFrame := ⟨18446744073709551615, .key [0]⟩
    (RequestFrame.codec.encode put).length = 78 ∧ (ResponseFrame.codec.encode key).length = 77 ∧
      (RequestFrame.codec.encode get).length ≤ 78 ∧ (ResponseFrame.codec.encode key).length ≤ 78 ∧
      (Stream.fresh 78).Passes RequestFrame.codec (.fresh 78) put ∧
      (Stream.fresh 78).Passes RequestFrame.codec (.fresh 78) get ∧
      (Stream.fresh 78).Passes ResponseFrame.codec (.fresh 78) key ∧
      let held : Holdings := ⟨.plain Draw.plain.salt, .empty .root⟩
      let supply : Supply := ⟨.plain, .plain, .smooth⟩
      (Service.handle ⟨.plain, false⟩ supply (Service.handle ⟨.plain, false⟩ supply held put.request).2
        get.request).1 = .key [0] := by
  intro put get key
  obtain ⟨lengths, streams, services⟩ := stored_keys_return .plain [0] .empty 1 18446744073709551615
  have tight : (RequestFrame.codec.encode put).length = 78 := by decide +kernel
  have spare : (ResponseFrame.codec.encode key).length = 77 := by decide +kernel
  have small : (RequestFrame.codec.encode put).length < Frame.most := by rw [tight]; decide
  have rest := Stream.idle_fresh 78
  have passes : (Stream.fresh 78).Passes RequestFrame.codec (.fresh 78) put :=
    (Stream.passes_iff rest rest small (RequestFrame.codec_faithful put).decode_encode).mpr
      ⟨Nat.le_of_eq tight, Nat.le_of_eq tight⟩
  obtain ⟨asked, returned⟩ := lengths 78 (Nat.le_of_eq tight)
  obtain ⟨-, asks, returns⟩ := streams (.fresh 78) (.fresh 78) 78 78 rest rest (by decide) passes
  refine ⟨tight, spare, asked, returned, passes, asks, returns, ?_⟩
  intro held supply
  exact congrArg Prod.fst (services ⟨.plain, false⟩ supply supply held (by decide) (by decide)).2

end Custody
