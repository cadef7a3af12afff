/-
# Nothing is lost in a document

Models, requests, chains, limits and settings are written as objects with all
their fields, and what is written is read back as it was: as a value, and as a
text on one line or over several, if it is not nested deeper than a document
may be and its numbers have 64 bits.

Key definitions: `Json.Lossless`.
Key theorems: `Json.formats_lossless`.
-/
import CallChain.Proofs.Json.Formats
import CallChain.Proofs.Json.Reading

namespace CallChain

namespace Json

/-- Things are written with fields of the given names, in this order and none
left out, and read back. -/
structure Lossless {α : Type} (names : List String) (write : α → Json)
    (read? : Json → Option α) : Prop where
  fields : ∀ a, ∃ fs, write a = .obj fs ∧ fs.map Prod.fst = names
  value : ∀ a, read? (write a) = some a
  compact : ∀ a, fits maxNesting (write a) = true →
    (document? (write a).compact).bind read? = some a
  pretty : ∀ a, fits maxNesting (write a) = true →
    (document? (write a).pretty).bind read? = some a

/-- What is read back from values is read back from texts. -/
theorem Lossless.of_value {α : Type} {names : List String} {write : α → Json}
    {read? : Json → Option α} (hfields : ∀ a, ∃ fs, write a = .obj fs ∧ fs.map Prod.fst = names)
    (hvalue : ∀ a, read? (write a) = some a) : Lossless names write read? where
  fields := hfields
  value := hvalue
  compact a hfits := by
    rw [document?_of_spells (spells_compact hfits) hfits, Option.bind_some, hvalue]
  pretty a hfits := by
    rw [document?_of_spells (spells_pretty hfits) hfits, Option.bind_some, hvalue]

/-- **Decoding undoes encoding**, for every model, request, chain, limits and
settings: all fields are written, and the value read is the one written. -/
theorem formats_lossless :
    Lossless ["types"] Model.toJson Model.ofJson? ∧
    Lossless ["invoking_type", "token", "node", "visible_locals", "visible_fields",
      "visible_methods", "expected_type"] Request.toJson Request.ofJson? ∧
    Lossless ["elements", "expected_dimension"] Chain.toJson Chain.ofJson? ∧
    Lossless ["max_chains", "min_depth", "max_depth", "excluded_types", "timeout"]
      Limits.toJson Limits.ofJson? ∧
    Lossless ["max_chains", "min_chain_length", "max_chain_length", "ignored_types",
      "timeout_secs"] Settings.toJson Settings.ofJson? :=
  ⟨.of_value (fun _ => ⟨_, rfl, rfl⟩) Model.ofJson?_toJson,
    .of_value (fun _ => ⟨_, rfl, rfl⟩) Request.ofJson?_toJson,
    .of_value (fun _ => ⟨_, rfl, rfl⟩) Chain.ofJson?_toJson,
    .of_value (fun _ => ⟨_, rfl, rfl⟩) Limits.ofJson?_toJson,
    .of_value (fun _ => ⟨_, rfl, rfl⟩) Settings.ofJson?_toJson⟩

end Json

namespace Errand

/-- A request behind a value of a nested type, for anything at all. -/
def request : Request where
  invokingType := "app.Main"
  token := "a\t\"b"
  place := .memberOf (.array (.applied (.named "java.util.List") [.plain "T", .unresolved]) 2)
  locals := [Member.field "app.Main" "größe" (.plain "int")]

/-- The request comes back from its text, escaped characters and all. -/
theorem request_comes_back :
    Json.fits Json.maxNesting request.toJson = true ∧
      (Json.document? request.toJson.compact).bind Request.ofJson? = some request ∧
      (Json.document? request.toJson.pretty).bind Request.ofJson? = some request := by
  have hfits : Json.fits Json.maxNesting request.toJson = true := by decide
  have hrequests := Json.formats_lossless.2.1
  exact ⟨hfits, hrequests.compact _ hfits, hrequests.pretty _ hfits⟩

example : (JavaType.array (.named "app.Box") 2).toJson.compact =
    "\x7b\"kind\":\"Array\",\"data\":\x7b\"element\":" ++
      "\x7b\"kind\":\"Id\",\"data\":\"app.Box\"\x7d,\"dimensions\":2\x7d\x7d" := by decide

end Errand

end CallChain
