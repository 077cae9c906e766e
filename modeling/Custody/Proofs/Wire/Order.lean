import Custody.Proofs.Json.Placement
import Custody.Proofs.Wire.Message

/-!
Frames whose members come in another order. What is read stays the same, wherever the arguments stand, but for one
way of writing the kind of a failure, which is read only from data that come before the status.
-/

namespace Custody

open Json (Codec Schema Source Tagged Variant Reordered)

variable {src src' : Source} {n : Nat}

theorem KeyId.codec_follows : codec.Follows src src' (Reordered n) :=
  Codec.text_flat.refine.follows (Codec.follows_of_eq rfl).refine

theorem Json.Codec.text_follows : text.Follows src src' (Reordered n) := text_flat.follows (follows_of_eq rfl)

theorem Json.Codec.boolean_follows : boolean.Follows src src' (Reordered n) :=
  Flat.follows nofun (follows_of_eq rfl)

theorem Json.Codec.base64_follows : base64.Follows src src' (Reordered n) :=
  text_flat.refine.follows (follows_of_eq rfl).refine

theorem Json.Codec.count_follows : count.Follows src src' (Reordered n) :=
  (natural_flat _ _).follows (follows_of_eq rfl)

theorem Json.Codec.word64_follows : word64.Follows src src' (Reordered n) :=
  (natural_flat _ _).refine.follows (follows_of_eq rfl).refine

theorem Request.variants_follow :
    ∀ v ∈ tagged.variants, v.Follows src src' fun _ => Reordered 0 := by
  have named : nameSchema.Follows src src' fun _ => Reordered 0 := ⟨KeyId.codec_follows, trivial⟩
  simp only [tagged, List.forall_mem_cons, Variant.Follows, named, true_and]
  exact ⟨⟨Codec.text_follows, trivial⟩,
    ⟨KeyId.codec_follows, Codec.base64_follows, Codec.dictionary_follows, trivial⟩, nofun⟩

/-- A document is read in another order if the content may come after the tag, or be put aside before it. -/
def Json.Tagged.Places {α : Type} (t : Tagged α) (name : String) (j : Json) : Prop :=
  (∀ k ∈ j.named name, t.TagFirst k) ∨ j.Admitted Json.maxDepth

theorem Json.Tagged.Places.part {α : Type} {t : Tagged α} {name : String} {j k : Json} (places : t.Places name j)
    (member : k ∈ j.named name) : t.TagFirst k ∨ k.Admitted (Wire.room + 1) := by
  rcases places with first | admitted
  · exact .inl (first k member)
  · cases j with
    | object ms => exact .inr ((Json.admitted_object.mp admitted).2 _ (Json.mem_valuesOf.mp member)).2
    | null | bool | number | string | array => cases member

theorem Json.Schema.read_frame_follow {α β : Type} {title name : String} {c : Codec α}
    {view : β → Json.Values [UInt64, α]} {make : Json.Values [UInt64, α] → β} {f : β} {j j' : Json}
    (reordered : Reordered (n + 1) j j')
    (held : ∀ k k' a, k ∈ j.named name → k' ∈ j'.named name → Reordered n k k' → c.read .text k = .ok a →
      c.read .text k' = .ok a)
    (read : ((Schema.field "id" .word64 none (.field name c none .nil)).codec title view make).read .text j = .ok f) :
    ((Schema.field "id" .word64 none (.field name c none .nil)).codec title view make).read .text j' = .ok f := by
  let R (s : Option String) (k k' : Json) : Prop :=
    Reordered n k k' ∧ (s = some name → k ∈ j.named name ∧ k' ∈ j'.named name)
  have id : Codec.word64.Follows .text .text (R (some "id")) :=
    fun k k' number related => Codec.word64_follows k k' number related.1
  have part : c.Follows .text .text (R (some name)) := by
    intro k k' a related value
    obtain ⟨member, member'⟩ := related.2 rfl
    exact held k k' a member member' related.1 value
  refine Schema.codec_read_follow (R := R) ⟨id, part, trivial⟩ reordered ?_ read
  intro s k k' member below
  exact ⟨below, member name⟩

theorem RequestFrame.read_follow {j j' : Json} {f : RequestFrame} (reordered : Reordered 3 j j')
    (places : Request.tagged.Places "request" j') (read : codec.read .text j = .ok f) :
    codec.read .text j' = .ok f := by
  refine Schema.read_frame_follow reordered ?_ read
  intro k k' r _ member below value
  refine Tagged.read_follow (by decide) below (places.part member) ?_ value
  intro v known src src' c c' _ _ same content
  exact Variant.read_follow (Request.variants_follow v known) same (fun _ _ _ _ below => below) content

theorem FailureKind.codec_follows :
    codec.Follows src src' fun k k' => Reordered 0 k k' ∧ (src = .aside → src' = .aside ∨ ¬k'.HoldsEmpty) := by
  intro k k' kind related read
  simp only [codec] at read ⊢
  split at read
  · cases read
  · rename_i s name
    rw [Json.readName_follow related.1 related.2 name]
    exact read

theorem Summary.list_follows : (Codec.list codec).Follows src src' (Reordered 0) := by
  refine Codec.list_flat.follows (Codec.list_follows (Schema.codec_follows ⟨?_, ?_, ?_, trivial⟩))
  · exact (Codec.follows_of_eq rfl).refine
  · rintro j _ metadata rfl
    exact Codec.dictionary_follows j j metadata (.refl 0 j)
  · exact Codec.follows_of_eq rfl

theorem Response.variant_cases {v : Variant Response} (known : v ∈ tagged.variants) :
    (∀ src src', v.Follows src src' fun _ => Reordered 0) ∧
        (∀ src j kind message, v.read src j ≠ .ok (.failed kind message)) ∨
      ∃ name title make, v = .fields name title failedSchema make ∧
        ∀ vs, ∃ kind message, make vs = .failed kind message := by
  have fields {α : Type} {c : Codec α} {name title field : String} {make : Json.Values [α] → Response}
      (follows : ∀ src src', c.Follows src src' (Reordered 0))
      (other : ∀ vs kind message, make vs ≠ .failed kind message) :
      let v := Variant.fields name title (one field c) make
      (∀ src src', v.Follows src src' fun _ => Reordered 0) ∧
        ∀ src j kind message, v.read src j ≠ .ok (.failed kind message) := by
    refine ⟨fun src src' => ⟨follows src src', trivial⟩, fun src j kind message read => ?_⟩
    obtain ⟨-, vs, -, -, made⟩ := Variant.read_fields_eq_ok.mp read
    exact other vs kind message made
  simp only [tagged, List.mem_cons, List.not_mem_nil, or_false] at known
  rcases known with rfl | rfl | rfl | rfl | rfl | rfl | rfl | rfl | rfl | rfl | rfl
  · exact .inl (fields (fun _ _ => Codec.text_follows) nofun)
  · exact .inl (fields (fun _ _ => Codec.boolean_follows) nofun)
  · exact .inl (fields (fun _ _ => Codec.base64_follows) nofun)
  · exact .inl (fields (fun _ _ => Codec.boolean_follows) nofun)
  · exact .inl (fields (fun _ _ => Summary.list_follows) nofun)
  · exact .inl (fields (fun _ _ => Codec.boolean_follows) nofun)
  · exact .inl (fields (fun _ _ => Codec.count_follows) nofun)
  · exact .inl (fields (fun _ _ => Codec.count_follows) nofun)
  · exact .inl (fields (fun _ _ => Codec.count_follows) nofun)
  · refine .inl ⟨fun _ _ => trivial, fun src j kind message read => ?_⟩
    cases j <;> cases read
  · exact .inr ⟨_, _, _, rfl, fun (kind, message, ()) => ⟨kind, message, rfl⟩⟩

/-- The kind of a failure stands alone before an empty object. -/
def Json.KindHoldsEmpty (j : Json) : Prop := ∃ c ∈ j.named "data", ∃ kind ∈ c.named "kind", kind.HoldsEmpty

theorem Response.read_follow {j j' : Json} {r : Response} (reordered : Reordered 2 j j')
    (put : tagged.TagFirst j' ∨ j'.Admitted (Wire.room + 1))
    (fair : ¬(tagged.TagFirst j' ∧ (∃ kind message, r = .failed kind message) ∧ j'.KindHoldsEmpty))
    (read : codec.read .text j = .ok r) : codec.read .text j' = .ok r := by
  refine Tagged.read_follow (by decide) reordered put ?_ read
  intro v known src src' c c' places member same value
  rcases variant_cases known with ⟨follows, -⟩ | ⟨name, title, make, rfl, fails⟩
  · exact Variant.read_follow (follows src src') same (fun _ _ _ _ below => below) value
  · obtain ⟨ms, vs, rfl, -, made⟩ := Variant.read_fields_eq_ok.mp value
    have failed : ∃ kind message, r = .failed kind message := made ▸ fails vs
    let R (s : Option String) (k k' : Json) : Prop :=
      Reordered 0 k k' ∧ (s = some "kind" → src = .aside → src' = .aside ∨ ¬k'.HoldsEmpty)
    have kind : FailureKind.codec.Follows src src' (R (some "kind")) :=
      fun k k' a related => FailureKind.codec_follows k k' a ⟨related.1, related.2 rfl⟩
    have message : Codec.text.Follows src src' (R (some "message")) :=
      fun k k' a related => Codec.text_follows k k' a related.1
    refine Variant.read_follow (R := R) ⟨kind, message, trivial⟩ same ?_ value
    intro s k k' inside below
    refine ⟨below, fun name aside => (places aside).imp_right fun first empty => fair ⟨first, failed, ?_⟩⟩
    exact ⟨c', member, k', (inside "kind" name).2, empty⟩

theorem FailureKind.refuses_empty {k : Json} {kind : FailureKind} (holds : k.HoldsEmpty) :
    codec.read .text k ≠ .ok kind := by
  intro read
  obtain ⟨s, rfl⟩ := holds
  simp only [codec] at read
  split at read
  · cases read
  · rename_i found
    obtain ⟨-, other | ⟨v, same, unit⟩⟩ := Json.readName_eq_ok.mp found
    · cases other
    · cases same
      cases unit

theorem Response.refuses_empty {j : Json} {kind : FailureKind} {message : String} (first : tagged.TagFirst j)
    (holds : j.KindHoldsEmpty) : codec.read .text j ≠ .ok (.failed kind message) := by
  intro read
  obtain ⟨c, data, k, inside, empty⟩ := holds
  cases j with
  | null | bool | number | string | array => cases data
  | object ms =>
    have part : (some "data", c) ∈ tagged.parts ms :=
      List.mem_filter.mpr ⟨Json.mem_valuesOf.mp data, rfl⟩
    obtain ⟨-, accepts⟩ := Tagged.accepts_of_readMembers read
    cases accepts with
    | alone shape =>
      rw [shape] at part
      simp [tagged] at part
    | @aside tag content v shape =>
      have tag := first (some tagged.content, content) (by rw [shape]; rfl)
      simp [tagged] at tag
    | @direct tag content v shape alternative value =>
      obtain rfl : c = content := by
        rw [shape] at part
        simpa [tagged] using part
      rcases variant_cases (Tagged.mem_of_alternative alternative) with ⟨-, other⟩ | ⟨name, title, make, rfl, -⟩
      · exact other _ _ _ _ value
      · obtain ⟨ms, vs, rfl, holds, -⟩ := Variant.read_fields_eq_ok.mp value
        obtain ⟨⟨-, none⟩ | ⟨k', one, read⟩, -⟩ := holds
        · cases none
        · obtain rfl : k = k' := List.mem_singleton.mp (one ▸ inside)
          exact FailureKind.refuses_empty empty read

theorem ResponseFrame.read_response {j k : Json} {f : ResponseFrame} (read : codec.read .text j = .ok f)
    (member : k ∈ j.named "response") : Response.codec.read .text k = .ok f.response := by
  obtain ⟨vs, values, rfl⟩ := Except.map_eq_ok.mp read
  cases j with
  | null | bool | number | string | array => cases member
  | object ms =>
    have inside : k ∈ Json.valuesOf "response" (ms.filter fun m => m.1 != some "id") :=
      Json.mem_valuesOf.mpr (List.mem_filter.mpr ⟨Json.mem_valuesOf.mp member, rfl⟩)
    obtain ⟨-, ⟨-, none⟩ | ⟨k', one, read⟩, -⟩ := Schema.readMembers_eq_ok.mp values
    · cases none
    · obtain rfl : k = k' := List.mem_singleton.mp (one ▸ inside)
      exact read

theorem ResponseFrame.read_follow {j j' : Json} {f : ResponseFrame} (reordered : Reordered 3 j j')
    (places : Response.tagged.Places "response" j')
    (fair : ¬∃ k ∈ j'.named "response",
      Response.tagged.TagFirst k ∧ (∃ kind message, f.response = .failed kind message) ∧ k.KindHoldsEmpty)
    (read : codec.read .text j = .ok f) : codec.read .text j' = .ok f := by
  refine Schema.read_frame_follow reordered ?_ read
  intro k k' r member member' below value
  have same : f.response = r := Except.ok.inj ((read_response read member).symm.trans value)
  refine Response.read_follow below (places.part member') ?_ value
  rw [← same]
  exact fun exception => fair ⟨k', member', exception⟩

/-- Two texts of one document, but for the order of the members of the frame, of what it holds and of the arguments or
data in it; members of one name that stand deeper keep their order. -/
structure Rearranged (b b' : Bytes) (j j' : Json) : Prop where
  first : Json.parse? b = some j
  second : Json.parse? b' = some j'
  reordered : Reordered 3 j j'

def Json.tagLast (name tag content : String) (t c : Json) : Json :=
  .record [("id", .nat 7), (name, .record [(content, c), (tag, t)])]

def Json.tagFirst (name tag content : String) (t c : Json) : Json :=
  .record [(name, .record [(tag, t), (content, c)]), ("id", .nat 7)]

theorem rearranged_of_plain (name tag content : String) {t c : Json} (tags : t.Plain) (contents : c.Plain) :
    Rearranged (Json.tagLast name tag content t c).render (Json.tagFirst name tag content t c).render
      (Json.tagLast name tag content t c) (Json.tagFirst name tag content t c) := by
  have plain (l : List (String × Json)) (each : ∀ m ∈ l, m.2.Plain) : (Json.record l).Plain := .record each
  have inner : ∀ m ∈ [(tag, t), (content, c)], m.2.Plain := by simp [tags, contents]
  have inner' : ∀ m ∈ [(content, c), (tag, t)], m.2.Plain := by simp [tags, contents]
  have number : (Json.nat 7).Plain := .nat 7
  refine ⟨(plain _ ?_).parse?_render, (plain _ ?_).parse?_render, _, .swap _ _ [], ?_⟩
  · simp [plain _ inner', number]
  · simp [plain _ inner, number]
  · refine .cons ⟨rfl, ?_⟩ (.cons ⟨rfl, .refl 2 _⟩ .nil)
    exact .of_perm (.swap _ _ []) fun _ => .refl 1

/-- What is read of a frame is read in every other order in which the tag comes first, and in the others too if the
document can be put aside. Only a failure whose kind stands before an empty object is not read after its status. -/
theorem frames_unordered :
    (∀ b b' j j' f, Rearranged b b' j j' → RequestFrame.codec.decode b = .ok f →
      (∀ k ∈ j'.named "request", Request.tagged.TagFirst k) ∨ j.Admitted Json.maxDepth →
      RequestFrame.codec.decode b' = .ok f) ∧
    ∀ b b' j j' f, Rearranged b b' j j' → ResponseFrame.codec.decode b = .ok f →
      (∀ k ∈ j'.named "response", Response.tagged.TagFirst k) ∨ j.Admitted Json.maxDepth →
      (ResponseFrame.codec.decode b' = .ok f ↔
        ¬∃ k ∈ j'.named "response", Response.tagged.TagFirst k ∧
          (∃ kind message, f.response = .failed kind message) ∧ k.KindHoldsEmpty) := by
  constructor
  · rintro b b' j j' f ⟨first, second, reordered⟩ read places
    rw [Codec.decode, first] at read
    rw [Codec.decode, second]
    exact RequestFrame.read_follow reordered (places.imp_right reordered.admitted) read
  · rintro b b' j j' f ⟨first, second, reordered⟩ read places
    rw [Codec.decode, first] at read
    rw [Codec.decode, second]
    constructor
    · rintro read' ⟨k, member, tagFirst, ⟨kind, message, failed⟩, empty⟩
      have refused : Response.codec.read .text k ≠ .ok (.failed kind message) := Response.refuses_empty tagFirst empty
      exact refused (failed ▸ ResponseFrame.read_response read' member)
    · intro fair
      exact ResponseFrame.read_follow reordered (places.imp_right reordered.admitted) fair read

theorem frames_unordered_get :
    let args := Json.record [("id", .text "k")]
    let data := Json.record [("kind", .text "io"), ("message", .text "")]
    (∃ f, RequestFrame.codec.decode (Json.tagLast "request" "verb" "args" (.text "GET") args).render = .ok f ∧
      RequestFrame.codec.decode (Json.tagFirst "request" "verb" "args" (.text "GET") args).render = .ok f) ∧
    ResponseFrame.codec.decode (Json.tagLast "response" "status" "data" (.text "error") data).render =
        .ok ⟨7, .failed .io ""⟩ ∧
      ResponseFrame.codec.decode (Json.tagFirst "response" "status" "data" (.text "error") data).render =
        .ok ⟨7, .failed .io ""⟩ := by
  intro args data
  have plain : args.Plain := .record (List.forall_mem_singleton.mpr (.text "k"))
  have plain' : data.Plain := .record (by simp [Json.Plain.text])
  have asked := rearranged_of_plain "request" "verb" "args" (.text "GET") plain
  have answered := rearranged_of_plain "response" "status" "data" (.text "error") plain'
  have read : RequestFrame.codec.decode (Json.tagLast "request" "verb" "args" (.text "GET") args).render =
      .ok ⟨7, .get ⟨"k", by decide, by decide, by decide⟩⟩ := by
    rw [Codec.decode, asked.first]
    rfl
  have read' : ResponseFrame.codec.decode (Json.tagLast "response" "status" "data" (.text "error") data).render =
      .ok ⟨7, .failed .io ""⟩ := by
    rw [Codec.decode, answered.first]
    rfl
  refine ⟨⟨_, read, frames_unordered.1 _ _ _ _ _ asked read (.inl ?_)⟩, read', ?_⟩
  · simp [Json.tagFirst, Json.named, Json.valuesOf, Json.record, Tagged.TagFirst, Tagged.parts, Request.tagged]
  · refine (frames_unordered.2 _ _ _ _ _ answered read' (.inl ?_)).mpr ?_
    · simp [Json.tagFirst, Json.named, Json.valuesOf, Json.record, Tagged.TagFirst, Tagged.parts, Response.tagged]
    · simp [Json.tagFirst, Json.named, Json.valuesOf, Json.record, Json.KindHoldsEmpty, Json.HoldsEmpty, data,
        Json.text]

/-- Of a kind before an empty object the failure is read where the data come first, and not after the status. -/
theorem empty_kind_needs_data_first :
    let data := Json.record [("kind", .record [("io", .record [])]), ("message", .text "")]
    let first := Json.tagLast "response" "status" "data" (.text "error") data
    let second := Json.tagFirst "response" "status" "data" (.text "error") data
    Rearranged first.render second.render first second ∧
      ResponseFrame.codec.decode first.render = .ok ⟨7, .failed .io ""⟩ ∧
      ∀ f, ResponseFrame.codec.decode second.render ≠ .ok f := by
  intro data first second
  have empty : (Json.record []).Plain := .record (by simp)
  have kind : (Json.record [("io", .record [])]).Plain := .record (List.forall_mem_singleton.mpr empty)
  have plain : data.Plain := .record (by simp [kind, Json.Plain.text])
  have rearranged := rearranged_of_plain "response" "status" "data" (.text "error") plain
  refine ⟨rearranged, ?_, ?_⟩
  · rw [Codec.decode, rearranged.first]
    rfl
  · intro f
    rw [Codec.decode, rearranged.second]
    rintro ⟨⟩

end Custody
