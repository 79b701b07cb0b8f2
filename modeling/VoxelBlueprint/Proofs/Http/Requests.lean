/-
# Frameworks, and requests that put a text

What is assumed of a framework is what is documented of it: the answer of an endpoint is sent with
its status and its content, and what a framework answers on its own says nothing of the program.
This is so of the framework that serves the program. For every text there is a request that comes
to a call with it there, and a call is answered as if the service had been asked directly.

Key definitions: `Http.Response.IsOwn`, `Http.Framework.Documented`, `Http.textRequest`.
Key theorems: `Http.Framework.documented_standard`, `Http.Framework.handle_of_call`,
`Text.splitOn_singleton`, `Http.receive_textRequest`.
-/
import Mathlib.Data.String.Basic
import VoxelBlueprint.Http.Standard
import VoxelBlueprint.Proofs.Effects
import VoxelBlueprint.Proofs.Json.Bytes

namespace VoxelBlueprint

/-! ### The parts of a text between two characters of a kind -/

namespace Text

open String

/-- How a text is split, from a place on that lies behind the parts `before`, `part`. -/
theorem splitOnAux_singleton (c : Char) (before part rest : List Char) (parts : List String) :
    splitOnAux (ofList (before ++ part ++ rest)) (ofList [c]) ⟨utf8Len before⟩
        ⟨utf8Len before + utf8Len part⟩ 0 parts =
      parts.reverse ++ (List.splitOnPPrepend (· == c) rest part.reverse).map ofList := by
  have hget : Pos.Raw.get (ofList [c]) 0 = c := by
    simpa using get_of_valid [] [c]
  have hnext : Pos.Raw.next (ofList [c]) 0 = ⟨c.utf8Size⟩ := by
    simpa using next_of_valid [] c []
  have hend : Pos.Raw.atEnd (ofList [c]) ⟨c.utf8Size⟩ = true := by
    simpa using atEnd_of_valid [c] []
  have hat := atEnd_of_valid (before ++ part) rest
  rw [utf8Len_append] at hat
  rw [splitOnAux]
  cases rest with
  | nil =>
    rw [if_pos (hat.mpr rfl), extract_of_valid before part []]
    simp
  | cons d rest =>
    have hd := get_of_valid (before ++ part) (d :: rest)
    have hn := next_of_valid (before ++ part) d rest
    rw [utf8Len_append] at hd hn
    rw [List.headD_cons] at hd
    rw [if_neg (mt hat.mp (List.cons_ne_nil d rest)), hget, hnext]
    simp only [hend, hd, hn, if_true, List.splitOnPPrepend_cons_eq_if]
    by_cases h : (d == c) = true
    · have hoff : (⟨utf8Len before + utf8Len part + d.utf8Size⟩ : Pos.Raw).unoffsetBy
          ⟨c.utf8Size⟩ = ⟨utf8Len before + utf8Len part⟩ := by
        rw [eq_of_beq h, Pos.Raw.unoffsetBy, Nat.add_sub_cancel]
      have ih := splitOnAux_singleton c (before ++ part ++ [d]) [] rest (ofList part :: parts)
      rw [if_pos h, if_pos h, hoff, extract_of_valid]
      simpa [-ofList_append, Nat.add_assoc] using ih
    · have hoff : (⟨utf8Len before + utf8Len part⟩ : Pos.Raw).unoffsetBy 0 =
          ⟨utf8Len before + utf8Len part⟩ := rfl
      have ih := splitOnAux_singleton c before (part ++ [d]) rest parts
      rw [if_neg h, if_neg h, hoff, hn]
      simpa [-ofList_append, Nat.add_assoc] using ih
termination_by rest.length

/-- A text is split at a character as the list of its characters is. -/
theorem splitOn_singleton (s : String) (c : Char) :
    s.splitOn (ofList [c]) = (s.toList.splitOnP (· == c)).map ofList := by
  have h := splitOnAux_singleton c [] [] s.toList []
  rw [List.nil_append, List.nil_append, ofList_toList] at h
  rw [splitOn, if_neg (by simp)]
  exact h

end Text

namespace Http

/-! ### What is documented of frameworks -/

/-- The names of the fields of a document that describes an interface. -/
def descriptionFields : List String :=
  ["openapi", "info", "jsonSchemaDialect", "servers", "paths", "webhooks", "components",
   "security", "tags", "externalDocs"]

/-- Whether an answer is of a kind that a framework gives on its own. -/
inductive Response.IsOwn : Response → Prop
  /-- What went wrong. -/
  | detail (status : Nat) (content : Json) : IsOwn (.json status (.obj [("detail", content)]))
  /-- A description of the interface. -/
  | description {fields : List (String × Json)}
    (h : ∀ field ∈ fields, field.1 ∈ descriptionFields) : IsOwn (.json 200 (.obj fields))
  | invalidRequest : IsOwn .invalidRequest
  | bodiless : IsOwn .bodiless

/-- Whether a framework does what is documented of it. Nothing is assumed of how it finds the
endpoint of a request, nor of what it refuses. -/
structure Framework.Documented (framework : Framework) : Prop where
  /-- What is sent of an answer has its status and its content. -/
  sent : ∀ answer response, framework.send answer = .ok response →
    response = answer.toResponse
  /-- What is not sent of an answer is of the framework's own kinds. -/
  own : ∀ request response, framework.receive request = .ok (.answered response) → response.IsOwn

section Standard

variable {request : Request} {response : Response}

theorem isOwn_of_parseBody {body : List UInt8} (h : parseBody body = .error response) :
    response.IsOwn := by
  unfold parseBody at h
  split at h
  · cases h
    exact .detail _ _
  · split at h <;> cases h
    · exact .invalidRequest
    · exact .detail _ _

theorem isOwn_of_withBody {α : Type} {read : Json → Except (List Json) α} {call : α → Call}
    (h : withBody request read call = .ok (.answered response)) : response.IsOwn := by
  unfold withBody at h
  cases hp : parseBody request.body with
  | error r =>
    rw [hp] at h
    cases h
    exact isOwn_of_parseBody hp
  | ok raw =>
    rw [hp] at h
    dsimp only at h
    cases hr : read raw with
    | error faults =>
      rw [hr] at h
      dsimp only at h
      split at h <;> cases h
      exact .invalidRequest
    | ok content =>
      rw [hr] at h
      cases h

theorem isOwn_of_receiveAt {route? : Option Route}
    (h : receiveAt request route? = .ok (.answered response)) : response.IsOwn := by
  unfold receiveAt at h
  split at h
  · cases h
    exact .bodiless
  · cases h
    exact .detail _ _
  · exact isOwn_of_withBody h
  · exact isOwn_of_withBody h
  · cases h
  · exact isOwn_of_withBody h
  · cases h
  · cases h
  · cases h
    exact .detail _ _
  · cases h
    exact .detail _ _

/-- **The framework that serves the program does what is documented.** -/
theorem Framework.documented_standard : standard.Documented where
  sent _ _ h := (Except.ok.inj h).symm
  own request response h := by
    obtain ⟨path, -, h⟩ := Effects.bind_eq_ok h
    exact isOwn_of_receiveAt h

end Standard

theorem answer_expand (service : Service) (request : ExpandRequest) :
    answer service (.expand request) =
      .ok ((service.expand request).1, .ofReply (service.expand request).2) := rfl

theorem answer_validate (service : Service) (request : ExpandRequest) :
    answer service (.validate request) =
      .ok (service, .ofReply (Service.validate request)) := rfl

/-- A request that comes to a call is answered with what is sent of the answer to the call. -/
theorem Framework.handle_of_call {framework : Framework} {request : Request} {call : Call}
    (h : framework.receive request = .ok (.call call)) {service service' : Service}
    {a : Answer} (ha : answer service call = .ok (service', a)) :
    framework.handle service request = (service', framework.send a) := by
  unfold handle
  simp only [h, ha]

/-! ### A request for every text -/

/-- The request that puts a text to a target, with nothing else in its body. -/
def textRequest (target text : String) : Request where
  method := "POST"
  target := target
  body := Text.asciiBytes (Json.compact (.obj [("text", .str text)])).toList

theorem parseBody_textRequest (target text : String) :
    parseBody (textRequest target text).body = .ok (.obj [("text", .str text)]) := by
  have hw : Json.Writable Json.Reader.maxNesting (.obj [("text", .str text)]) :=
    .obj (by simp) (by simpa using Json.Writable.str _ text)
  have hread := Json.read_compact hw [] nofun
  rw [List.append_nil] at hread
  unfold parseBody textRequest
  rw [Json.textOfBytes?_asciiBytes (Json.isVisible_compact hw)]
  simp only [hread]

theorem withoutDots_eq (path : String) :
    withoutDots path =
      "/".intercalate
        (((path.toList.splitOnP (· == '/')).map String.ofList).foldl takeSegment []).reverse := by
  have h : path.splitOn "/" = _ := Text.splitOn_singleton path '/'
  rw [withoutDots, h]

/-- A target is its own path if nothing in it is taken off or undone. -/
theorem pathOf_of_plain {target : String} (hl : target.toList.length ≤ maxTargetLength)
    (hc : target.toList.find? isControl = none)
    (hraw : rawPath target.toList = .ok target.toList) (hd : withoutDots target = target)
    (hne : target ≠ "") (hu : unescape (unescape target.toList) = target.toList) :
    pathOf target = .ok target.toList := by
  unfold pathOf
  simp only [if_neg (Nat.not_lt.mpr hl), hc, hraw, bind, Except.bind, pure, Except.pure]
  rw [String.ofList_toList, hd, if_neg hne, hu]

theorem pathOf_routes :
    pathOf "/api/v1/blueprints/expand" = .ok "/api/v1/blueprints/expand".toList ∧
      pathOf "/api/v1/blueprints/validate" = .ok "/api/v1/blueprints/validate".toList := by
  constructor
  · refine pathOf_of_plain (by decide) (by decide) rfl ?_ (by decide) (by decide)
    rw [withoutDots_eq]
    decide +kernel
  · refine pathOf_of_plain (by decide) (by decide) rfl ?_ (by decide) (by decide)
    rw [withoutDots_eq]
    decide +kernel

/-- What a request comes to is found under the path of its target. -/
theorem Framework.receive_of_pathOf (request : Request) {path : List Char}
    (h : pathOf request.target = .ok path) :
    standard.receive request = receiveAt request (routeOf? path) := by
  show ((pathOf request.target).mapError Failure.target >>= _) = _
  rw [h]
  rfl

/-- **Every text can be put to be expanded and to be validated.** -/
theorem receive_textRequest (text : String) :
    Framework.standard.receive (textRequest "/api/v1/blueprints/expand" text) =
        .ok (.call (.expand { submission := .text text })) ∧
      Framework.standard.receive (textRequest "/api/v1/blueprints/validate" text) =
        .ok (.call (.validate { submission := .text text })) := by
  have hmethod : "POST".toUpper = "POST" := by
    rw [← String.toList_inj, String.toUpper, String.toList_map]
    decide
  have hcontent : ExpandRequest.ofJson (.obj [("text", .str text)]) =
      .ok { submission := .text text } := rfl
  have hbody : ∀ (target : String) (call : ExpandRequest → Call),
      withBody (textRequest target text) ExpandRequest.ofJson call =
        .ok (.call (call { submission := .text text })) := by
    intro target call
    rw [withBody, parseBody_textRequest]
    simp only [hcontent]
  have hexpand : routeOf? "/api/v1/blueprints/expand".toList = some .expand := by
    decide +kernel
  have hvalidate : routeOf? "/api/v1/blueprints/validate".toList = some .validate := by
    decide +kernel
  obtain ⟨hpath, hpath'⟩ := pathOf_routes
  constructor
  · rw [Framework.receive_of_pathOf (textRequest _ text) hpath, hexpand]
    unfold receiveAt
    rw [show (textRequest _ text).method.toUpper = "POST" from hmethod]
    exact hbody _ _
  · rw [Framework.receive_of_pathOf (textRequest _ text) hpath', hvalidate]
    unfold receiveAt
    rw [show (textRequest _ text).method.toUpper = "POST" from hmethod]
    exact hbody _ _

end Http
end VoxelBlueprint
