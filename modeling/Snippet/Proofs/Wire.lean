import Mathlib.Data.List.Nodup
import Snippet.Message.Wire
import Snippet.Proofs.InstantText
import Snippet.Proofs.JsonText

/-!
# Responses on the wire

A response comes back from its wire form as it was (`response_roundtrip`). Two things are needed for
that. The parts that are left out are read as absent, since the names of an object's members are
different (`Json.get?_ofMembers`) and no part that is there is written as null
(`Json.optionalMember_of_get?`). And the text of the wire form is read as the value that was
written, since that has no doubles, and opens five arrays and objects at the most
(`Response.fits_toJson`).
-/

namespace Snippet

/-! ### Members -/

namespace Json

theorem lookup_eq_none_of_notMem {α : Type} {name : String} {members : List (String × α)}
    (h : name ∉ members.map Prod.fst) : members.lookup name = none := by
  rw [List.lookup_eq_none_iff]
  intro m hm
  refine bne_iff_ne.2 fun heq ↦ h ?_
  rw [heq]
  exact List.mem_map_of_mem hm

/-- A member that has a value is found, and one that is left out is not. -/
theorem get?_ofMembers (members : List (String × Option Json))
    (h : (members.map Prod.fst).Nodup) (name : String) :
    (ofMembers members).get? name = (members.lookup name).join := by
  rw [ofMembers, get?]
  induction members with
  | nil => rfl
  | cons m members ih =>
    obtain ⟨name', value⟩ := m
    obtain ⟨hnotMem, hrest⟩ := List.nodup_cons.1 h
    have hih := ih hrest
    cases value with
    | none =>
      rw [List.filterMap_cons_none rfl, hih, List.lookup_cons]
      split
      · next heq =>
        rw [beq_iff_eq.1 heq, lookup_eq_none_of_notMem hnotMem]
        rfl
      · rfl
    | some value =>
      show ((name', value) :: members.filterMap _).lookup name = _
      rw [List.lookup_cons, List.lookup_cons]
      split
      · rfl
      · exact hih

/-- A part that may be absent is read back, as it is never written as null. -/
theorem optionalMember_of_get? {α : Type} {name : String} {read : Json → Option α}
    {write : α → Json} {value : Option α} {j : Json} (h : j.get? name = value.map write)
    (hnull : ∀ a, write a ≠ .null) (hread : ∀ a, read (write a) = some a) :
    optionalMember name read j = some value := by
  have hpresent : j.present? name = value.map write := by
    rw [present?, h]
    cases value with
    | none => rfl
    | some a =>
      rw [Option.map_some]
      split
      · next hwrite => exact absurd (Option.some.inj hwrite) (hnull a)
      · rfl
  rw [optionalMember, hpresent]
  cases value with
  | none => rfl
  | some a => exact congrArg (Option.map some) (hread a)

end Json

/-! ### Values -/

theorem Field.ofJson?_toJson (f : Field) : Field.ofJson? f.toJson = some f :=
  rfl

theorem Footer.ofJson?_toJson (f : Footer) : Footer.ofJson? f.toJson = some f := by
  have hget := Json.get?_ofMembers [("text", some (.string f.text)),
    ("icon_url", f.icon.map .string)] (show ["text", "icon_url"].Nodup by decide)
  have htext : f.toJson.get? "text" = some (.string f.text) := hget "text"
  have hicon : optionalMember "icon_url" Json.string? f.toJson = some f.icon :=
    Json.optionalMember_of_get? (hget "icon_url") nofun fun _ ↦ rfl
  rw [Footer.ofJson?, htext, hicon]
  rfl

theorem Color.ofJson?_int (c : Color) : Color.ofJson? (.int c.word.toNat) = some c := by
  have hnat : Json.nat? (.int c.word.toNat) = some c.word.toNat := by
    rw [Json.nat?, if_pos (Int.natCast_nonneg _), Int.toNat_natCast]
  have hfits : (guard (c.word.toNat < UInt32.size) : Option Unit) = some () :=
    if_pos c.word.toNat_lt
  rw [Color.ofJson?, hnat, Option.bind_eq_bind, Option.bind_some, hfits, Option.bind_eq_bind,
    Option.bind_some, UInt32.ofNat_toNat]
  rfl

theorem Instant.ofJson?_text (t : Instant) : Instant.ofJson? (.string t.text) = some t := by
  rw [Instant.ofJson?, Json.string?, Option.bind_eq_bind, Option.bind_some, Instant.ofText?_text]

theorem mapM_ofJson?_toJson (fields : List Field) :
    (fields.map Field.toJson).mapM Field.ofJson? = some fields := by
  induction fields with
  | nil => rfl
  | cons f fields ih => rw [List.map_cons, List.mapM_cons, Field.ofJson?_toJson, ih]; rfl

theorem Document.ofJson?_toJson (d : Document) : Document.ofJson? d.toJson = some d := by
  have hget := Json.get?_ofMembers [("title", some (.string d.title)),
    ("description", some (.string d.description)),
    ("fields", some (.array (d.fields.map Field.toJson))), ("footer", d.footer.map Footer.toJson),
    ("color", d.color.map fun c ↦ .int c.word.toNat),
    ("timestamp", d.timestamp.map fun t ↦ .string t.text)]
    (show ["title", "description", "fields", "footer", "color", "timestamp"].Nodup by decide)
  have htitle : d.toJson.get? "title" = some (.string d.title) := hget "title"
  have hdescription : d.toJson.get? "description" = some (.string d.description) :=
    hget "description"
  have hfields : d.toJson.get? "fields" = some (.array (d.fields.map Field.toJson)) := hget "fields"
  have hfooter : optionalMember "footer" Footer.ofJson? d.toJson = some d.footer :=
    Json.optionalMember_of_get? (hget "footer") nofun Footer.ofJson?_toJson
  have hcolor : optionalMember "color" Color.ofJson? d.toJson = some d.color :=
    Json.optionalMember_of_get? (hget "color") nofun Color.ofJson?_int
  have htimestamp : optionalMember "timestamp" Instant.ofJson? d.toJson = some d.timestamp :=
    Json.optionalMember_of_get? (hget "timestamp") nofun Instant.ofJson?_text
  rw [Document.ofJson?, htitle, hdescription, hfields, hfooter, hcolor, htimestamp]
  show ((d.fields.map Field.toJson).mapM Field.ofJson? >>= _) = _
  rw [mapM_ofJson?_toJson]
  rfl

theorem Message.ofJson?_toJson (m : Message) : Message.ofJson? m.toJson = some m := by
  have hget := Json.get?_ofMembers [("content", m.content.map .string),
    ("embed", m.document.map Document.toJson)] (show ["content", "embed"].Nodup by decide)
  have hcontent : optionalMember "content" Json.string? m.toJson = some m.content :=
    Json.optionalMember_of_get? (hget "content") nofun fun _ ↦ rfl
  have hdocument : optionalMember "embed" Document.ofJson? m.toJson = some m.document :=
    Json.optionalMember_of_get? (hget "embed") nofun Document.ofJson?_toJson
  rw [Message.ofJson?, hcontent, hdocument]
  rfl

theorem Response.ofJson?_toJson (r : Response) : Response.ofJson? r.toJson = some r := by
  cases r with
  | ok m =>
    show (Message.ofJson? m.toJson >>= _) = _
    rw [Message.ofJson?_toJson]
    rfl
  | badRequest reason => rfl
  | empty => rfl

/-! ### Texts -/

section Fits

open Json (Fits)

variable {n : Nat}

theorem fits_ofMembers {members : List (String × Option Json)}
    (h : ∀ m ∈ members, ∀ j ∈ m.2, Fits n j) : Fits (n + 1) (.ofMembers members) := by
  refine .object fun m hm ↦ ?_
  obtain ⟨⟨name, value⟩, hmem, hvalue⟩ := List.mem_filterMap.1 hm
  obtain ⟨j, hj, rfl⟩ := Option.map_eq_some_iff.1 hvalue
  exact h _ hmem j hj

theorem fits_map {α : Type} {write : α → Json} (value : Option α) (h : ∀ a, Fits n (write a)) :
    ∀ j ∈ value.map write, Fits n j := by
  intro j hj
  obtain ⟨a, -, rfl⟩ := Option.map_eq_some_iff.1 hj
  exact h a

theorem fits_some {j : Json} (h : Fits n j) : ∀ j' ∈ some j, Fits n j' := by
  rintro _ ⟨⟩
  exact h

theorem Field.fits_toJson (n : Nat) (f : Field) : Fits (n + 1) f.toJson := by
  refine .object ?_
  simp only [List.forall_mem_cons]
  exact ⟨.string n _, .string n _, .bool n _, List.forall_mem_nil _⟩

theorem Footer.fits_toJson (n : Nat) (f : Footer) : Fits (n + 1) f.toJson := by
  refine fits_ofMembers ?_
  simp only [List.forall_mem_cons]
  exact ⟨fits_some (.string n _), fits_map f.icon (.string n), List.forall_mem_nil _⟩

theorem Color.fits_int (n : Nat) (c : Color) : Fits n (.int c.word.toNat) := by
  have hlt := c.word.toNat_lt
  have hsize : 2 ^ 32 < UInt64.size := by decide
  exact .int n ⟨by omega, by omega⟩

theorem Document.fits_toJson (n : Nat) (d : Document) : Fits (n + 3) d.toJson := by
  have hfields : Fits (n + 2) (.array (d.fields.map Field.toJson)) := by
    refine .array fun j hj ↦ ?_
    obtain ⟨f, -, rfl⟩ := List.mem_map.1 hj
    exact f.fits_toJson n
  refine fits_ofMembers ?_
  simp only [List.forall_mem_cons]
  exact ⟨fits_some (.string _ _), fits_some (.string _ _), fits_some hfields,
    fits_map d.footer (Footer.fits_toJson (n + 1)), fits_map d.color (Color.fits_int (n + 2)),
    fits_map d.timestamp fun _ ↦ .string _ _, List.forall_mem_nil _⟩

theorem Message.fits_toJson (n : Nat) (m : Message) : Fits (n + 4) m.toJson := by
  refine fits_ofMembers ?_
  simp only [List.forall_mem_cons]
  exact ⟨fits_map m.content (.string _), fits_map m.document (Document.fits_toJson n),
    List.forall_mem_nil _⟩

theorem Response.fits_toJson (n : Nat) (r : Response) : Fits (n + 5) r.toJson := by
  cases r with
  | ok m =>
    refine .object ?_
    simp only [List.forall_mem_cons]
    exact ⟨.string _ _, m.fits_toJson n, List.forall_mem_nil _⟩
  | badRequest reason =>
    refine .object ?_
    simp only [List.forall_mem_cons]
    exact ⟨.string _ _, .string _ _, List.forall_mem_nil _⟩
  | empty => exact .object (List.forall_mem_singleton.2 (.string _ _))

end Fits

/-- A response is read back from its wire form, as a value and as a text, whatever it is and
whatever parts of it are absent. In the text an instant has no, three, six or nine digits behind the
point, and a sign in front of a year that four digits have no room for. -/
theorem response_roundtrip (r : Response) :
    Response.ofJson? r.toJson = some r ∧
      (Json.parseBounded? r.toJson.compact).bind Response.ofJson? = some r ∧
      (∀ nanos : Fin 1000000000, (Instant.fractionText nanos).length ∈ [0, 4, 7, 10]) ∧
      ∀ year, (∃ c ∈ (Instant.yearText year).head?, c = '+' ∨ c = '-') ↔
        year < 0 ∨ 9999 < year := by
  refine ⟨r.ofJson?_toJson, ?_, Instant.length_fractionText, Instant.sign_yearText_iff⟩
  rw [Json.parseBounded?_compact (r.fits_toJson 122), Option.bind_some, r.ofJson?_toJson]

end Snippet
