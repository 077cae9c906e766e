import Custody.Proofs.Json.Tagged
import Custody.Proofs.Snapshot
import Custody.Wire.Response

/-!
Messages that are read back as they are written. Every request is; a response is if its counts fit their
width and its times are times that some text stands for.
-/

namespace Custody

open Json (Codec Schema Tagged)

theorem Json.Codec.boolean_faithful (b : Bool) : Codec.boolean.Faithful b := ⟨.bool b, fun _ => rfl⟩

theorem Json.Codec.count_faithful {n : Nat} (small : n < UInt64.size) : Codec.count.Faithful n :=
  natural_faithful "usize" small small

theorem Json.Codec.word64_faithful (n : UInt64) : Codec.word64.Faithful n :=
  (natural_faithful "u64" n.toNat_lt n.toNat_lt).refine (by simp)

theorem Instant.valid_iff {t : Instant} : t.Valid ↔ ∃ s, Instant.ofText s = .ok t := by
  constructor
  · intro valid
    exact ⟨t.text, ofText_text valid⟩
  · rintro ⟨s, read⟩
    exact ofText_valid read

namespace Request

theorem codec_faithful (r : Request) : codec.Faithful r := by
  have apart : tagged.content ≠ tagged.tag := by decide
  cases r with
  | auth password =>
    refine Tagged.fields_faithful rfl rfl apart rfl rfl (by decide) ?_
    exact ⟨Codec.text_faithful password, trivial⟩
  | put id material metadata =>
    refine Tagged.fields_faithful rfl rfl apart rfl rfl (by decide) ?_
    exact ⟨KeyId.codec_faithful id, Codec.base64_faithful material, Codec.dictionary_faithful metadata, trivial⟩
  | get id | delete id | contains id =>
    refine Tagged.fields_faithful rfl rfl apart rfl rfl (by decide) ?_
    exact ⟨KeyId.codec_faithful id, trivial⟩
  | list | count | clear | save | ping => exact Tagged.bare_faithful rfl rfl rfl

end Request

theorem RequestFrame.codec_faithful (f : RequestFrame) : codec.Faithful f := by
  refine Schema.codec_faithful _ (by decide) ?_ rfl
  exact ⟨Codec.word64_faithful f.id, Request.codec_faithful f.request, trivial⟩

theorem FailureKind.codec_faithful (k : FailureKind) : codec.Faithful k where
  plain := .text k.name
  read src := by cases k <;> rfl

theorem Summary.codec_faithful {s : Summary} (valid : s.created.Valid) : codec.Faithful s := by
  refine Schema.codec_faithful _ (by decide) ?_ rfl
  exact ⟨KeyId.codec_faithful s.id, Codec.dictionary_faithful s.metadata, Instant.codec_faithful valid, trivial⟩

namespace Response

/-- Counts fit their width, and times are times that some text stands for. -/
def Writable : Response → Prop
  | count n | cleared n | saved n => n < UInt64.size
  | keys summaries => ∀ s ∈ summaries, ∃ text, Instant.ofText text = .ok s.created
  | authenticated _ | stored _ | key _ | deleted _ | contains _ | pong | failed _ _ => True

theorem codec_faithful {r : Response} (writable : r.Writable) : codec.Faithful r := by
  have apart : tagged.content ≠ tagged.tag := by decide
  cases r with
  | authenticated session =>
    refine Tagged.fields_faithful rfl rfl apart rfl rfl (by decide) ?_
    exact ⟨Codec.text_faithful session, trivial⟩
  | stored b | deleted b | contains b =>
    refine Tagged.fields_faithful rfl rfl apart rfl rfl (by decide) ?_
    exact ⟨Codec.boolean_faithful b, trivial⟩
  | key material =>
    refine Tagged.fields_faithful rfl rfl apart rfl rfl (by decide) ?_
    exact ⟨Codec.base64_faithful material, trivial⟩
  | keys summaries =>
    refine Tagged.fields_faithful rfl rfl apart rfl rfl (by decide) ?_
    refine ⟨Codec.list_faithful fun s member => ?_, trivial⟩
    exact Summary.codec_faithful (Instant.valid_iff.mpr (writable s member))
  | count n | cleared n | saved n =>
    refine Tagged.fields_faithful rfl rfl apart rfl rfl (by decide) ?_
    exact ⟨Codec.count_faithful writable, trivial⟩
  | pong => exact Tagged.bare_faithful rfl rfl rfl
  | failed kind message =>
    refine Tagged.fields_faithful rfl rfl apart rfl rfl (by decide) ?_
    exact ⟨FailureKind.codec_faithful kind, Codec.text_faithful message, trivial⟩

end Response

theorem ResponseFrame.codec_faithful {f : ResponseFrame} (writable : f.response.Writable) :
    codec.Faithful f := by
  refine Schema.codec_faithful _ (by decide) ?_ rfl
  exact ⟨Codec.word64_faithful f.id, Response.codec_faithful writable, trivial⟩

/-- Every request, and every response that can be written, is read back from its bytes. -/
theorem frames_read_back :
    (∀ f : RequestFrame, RequestFrame.codec.decode (RequestFrame.codec.encode f) = .ok f) ∧
      ∀ f : ResponseFrame, f.response.Writable →
        ResponseFrame.codec.decode (ResponseFrame.codec.encode f) = .ok f := by
  constructor
  · intro f
    exact (RequestFrame.codec_faithful f).decode_encode
  · intro f writable
    exact (ResponseFrame.codec_faithful writable).decode_encode

def Summary.leaps : List Summary :=
  have named : KeyId.Valid "\"é\\" := ⟨by decide, by decide, by decide⟩
  [⟨⟨_, named⟩, .ofList [("z", "\u0001"), ("", "😀")], ⟨-62167219201, 1999999999⟩⟩,
    ⟨⟨_, named⟩, .empty, ⟨253436947199, 1500000000⟩⟩]

theorem frames_read_back_leaps :
    let f : ResponseFrame := ⟨18446744073709551615, .keys Summary.leaps⟩
    f.response.Writable ∧ ResponseFrame.codec.decode (ResponseFrame.codec.encode f) = .ok f := by
  intro f
  have times : ∀ s ∈ Summary.leaps, s.created.Valid := by decide
  have writable : f.response.Writable := fun s member => Instant.valid_iff.mp (times s member)
  exact ⟨writable, frames_read_back.2 f writable⟩

end Custody
