import Custody.Proofs.Json.Schema
import Custody.Proofs.Key.Store
import Custody.Proofs.Time.Instant
import Custody.Snapshot

/-!
Snapshots are read back as they are written, in whatever order the entries are listed. It takes valid times
and sealed texts that are not empty, and every snapshot that is read has them.
-/

namespace Custody

open Json (Codec Schema)

theorem KeyId.ofText_text (id : KeyId) : KeyId.ofText id.text = .ok id := by
  obtain ⟨s, some, short, shown⟩ := id
  unfold KeyId.ofText
  rw [dif_neg (by simp [some]), dif_neg (Nat.not_lt.mpr short), dif_neg (by simp [shown])]

theorem KeyId.codec_faithful (id : KeyId) : KeyId.codec.Faithful id :=
  (Codec.text_faithful id.text).refine (by rw [KeyId.ofText_text])

namespace Entry

theorem codec_faithful {e : Entry} (valid : e.created.Valid) : codec.Faithful e := by
  refine Schema.codec_faithful _ (by decide) ?_ rfl
  exact ⟨KeyId.codec_faithful e.id, Codec.base64_faithful e.sealedText, Codec.sized_faithful e.nonce,
    Instant.codec_faithful valid, Codec.dictionary_faithful e.metadata, trivial⟩

theorem codec_stable : codec.Stable := by
  refine Schema.codec_stable (by decide) ?_ fun _ => rfl
  exact ⟨Codec.stable_of_faithful KeyId.codec_faithful, nofun, Codec.stable_of_faithful Codec.base64_faithful,
    nofun, Codec.stable_of_faithful Codec.sized_faithful, nofun, Instant.codec_stable, nofun,
    Codec.stable_of_faithful Codec.dictionary_faithful, fun m _ => Codec.dictionary_faithful m, trivial⟩

end Entry

theorem Cost.codec_faithful (c : Cost) : Cost.codec.Faithful c := by
  refine Schema.codec_faithful _ (by decide) ?_ rfl
  exact ⟨Codec.word32_faithful c.memory, Codec.word32_faithful c.time, Codec.word32_faithful c.parallelism,
    trivial⟩

namespace Keyring

theorem codec_faithful {k : Keyring} (valid : k.created.Valid) : codec.Faithful k := by
  refine Schema.codec_faithful _ (by decide) ?_ rfl
  exact ⟨Codec.sized_faithful k.salt, Cost.codec_faithful k.cost, Codec.base64_faithful k.check,
    Codec.sized_faithful k.checkNonce, Instant.codec_faithful valid, trivial⟩

theorem codec_stable : codec.Stable := by
  refine Schema.codec_stable (by decide) ?_ fun _ => rfl
  exact ⟨Codec.stable_of_faithful Codec.sized_faithful, nofun, Codec.stable_of_faithful Cost.codec_faithful,
    nofun, Codec.stable_of_faithful Codec.base64_faithful, nofun,
    Codec.stable_of_faithful Codec.sized_faithful, nofun, Instant.codec_stable, nofun, trivial⟩

end Keyring

namespace Store

def Sound (s : Store) : Prop := ∀ e ∈ s.toList, Entry.codec.Faithful e ∧ e.sealedText ≠ []

theorem sound_empty : Sound .empty := fun _ member => absurd member List.not_mem_nil

theorem read_list {s : Store} (sound : s.Sound) {order : List Entry} (perm : order.Perm s.toList) :
    ((Codec.list Entry.codec).write order).Plain ∧
      ∀ src, codec.read src ((Codec.list Entry.codec).write order) = .ok s := by
  have listed := Codec.list_faithful fun e member => (sound e (perm.mem_iff.mp member)).1
  refine ⟨listed.plain, fun src => ?_⟩
  change ((Codec.list Entry.codec).read src ((Codec.list Entry.codec).write order)).bind _ = _
  rw [listed.read, Except.bind, ofList_perm (fun e member => (sound e member).2) perm]

theorem codec_faithful {s : Store} (sound : s.Sound) : codec.Faithful s :=
  have ⟨plain, read⟩ := read_list sound (.refl _)
  ⟨plain, read⟩

theorem sound_of_read {src : Json.Source} {j : Json} {s : Store} (read : codec.read src j = .ok s) :
    s.Sound := by
  obtain ⟨l, items, made⟩ := Except.bind_eq_ok.mp read
  have each := Codec.list_read items
  have added : ofList l = .ok s := by
    split at made
    · rename_i same
      cases made
      exact same
    · cases made
  have gathers := gathers_of_ofList added
  intro e member
  have listed := gathers.perm.mem_iff.mp member
  obtain ⟨i, one⟩ := each e listed
  exact ⟨Entry.codec_stable src i e one, gathers.admissible.filled e listed⟩

theorem codec_stable : codec.Stable := fun _ _ _ read => codec_faithful (sound_of_read read)

end Store

namespace Snapshot

/-- Times that can be written, and sealed texts that are not empty. -/
structure Sound (s : Snapshot) : Prop where
  keyring : Keyring.codec.Faithful s.keyring
  store : s.store.Sound

theorem read_document {s : Snapshot} (sound : s.Sound) {order : List Entry}
    (perm : order.Perm s.store.toList) (src : Json.Source) :
    codec.read src (document s.keyring order) = .ok s := by
  have keyring := sound.keyring.read src
  have store := (Store.read_list sound.store perm).2 src
  have differ : "keyring" ≠ "state" := by decide
  simp only [codec, schema, Schema.codec, Schema.read, document, Json.record, List.map_cons, List.map_nil,
    Schema.readMembers, Schema.putAll, Schema.put, Schema.blank, Schema.close, differ, if_true, if_false,
    keyring, store, Except.map, Except.bind, Option.some_or]

theorem decode_document {s : Snapshot} (sound : s.Sound) {order : List Entry}
    (perm : order.Perm s.store.toList) : codec.decode (document s.keyring order).render = .ok s := by
  have plain : (document s.keyring order).Plain := by
    refine .record fun m member => ?_
    rcases List.mem_cons.mp member with rfl | member
    · exact sound.keyring.plain
    · cases List.mem_singleton.mp member
      exact (Store.read_list sound.store perm).1
  rw [Codec.decode, plain.parse?_render]
  exact read_document sound perm .text

/-- Whatever bytes a snapshot is read from, it is sound. -/
theorem sound_of_decode {b : Bytes} {s : Snapshot} (read : codec.decode b = .ok s) : s.Sound := by
  unfold Codec.decode at read
  split at read
  · obtain ⟨⟨keyring, store, ⟨⟩⟩, values, rfl⟩ := Except.map_eq_ok.mp read
    have stable : schema.Stable := ⟨Keyring.codec_stable, nofun, Store.codec_stable, nofun, trivial⟩
    obtain ⟨kept, listed, -⟩ := Schema.faithful_read stable values
    exact ⟨kept, Store.sound_of_read (listed.read .text)⟩
  · cases read

end Snapshot

end Custody
