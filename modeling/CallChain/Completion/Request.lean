/-
# Requests for completion

Where in a program a value is wanted: the type around the place, what has
been typed so far, the names in scope, and the type of the value. A chain may
start with a name in scope, or with a member of what stands before the dot.

Key definitions: `Place`, `Request`, `Request.starts`.
-/
import CallChain.Facts

namespace CallChain

/-- A name that members are asked of. -/
inductive Qualifier where
  | type (name : String)
  | field (type : JavaType)
  | localVar (type : JavaType)
  deriving DecidableEq

/-- What stands before the place: nothing but a name being typed, a value and
a dot, a name and a dot, or something that no chain can follow. -/
inductive Place where
  | simpleName
  | memberOf (receiver : JavaType)
  | qualified (qualifier : Qualifier)
  | elsewhere
  deriving DecidableEq

/-- A request for completion. Names in scope are listed outermost first. -/
structure Request where
  invokingType : String
  token : String := ""
  place : Place
  locals : List Member := []
  fields : List Member := []
  methods : List Member := []
  expected : Option JavaType := none
  deriving DecidableEq

namespace Request

/-- Whether a member goes on what has been typed. -/
def isTyped (r : Request) (m : Member) : Bool := Text.startsWith m.label r.token

/-- The names in scope, local variables before fields before methods, the
innermost first. -/
def scope (r : Request) : List Member := r.locals.reverse ++ r.fields.reverse ++ r.methods.reverse

/-- Whether a member belongs to the type above all classes. -/
def isObjectMember (m : Member) : Bool :=
  Text.startsWith m.key (JavaName.signature JavaName.object)

/-- Whether a member is a field that a local variable hides. -/
def isHidden (r : Request) (m : Member) : Bool :=
  m.kind == .field && (r.locals.map (·.name)).contains m.name

/-- The links that a chain may start with where a name is being typed. A
hidden field is reached through `this`. -/
def nameStarts (F : Facts) (r : Request) : List Link :=
  (r.scope.filter fun m => r.isTyped m && !isObjectMember m).filterMap fun m =>
    (F.link (r.isHidden m) m).toOption

/-- The links that a chain may start with after a value or a type. -/
def memberStarts (F : Facts) (r : Request) (scope : MemberScope) (type : JavaType) : List Link :=
  match F.members scope type with
  | .ok ms => (ms.filter r.isTyped).filterMap fun m => (F.link false m).toOption
  | .error _ => []

/-- The links that a chain may start with. -/
def starts (F : Facts) (r : Request) : List Link :=
  match r.place with
  | .simpleName => r.nameStarts F
  | .memberOf receiver => r.memberStarts F .value receiver
  | .qualified (.type name) => r.memberStarts F .type (.named name)
  | .qualified (.field type) => r.memberStarts F .value type
  | .qualified (.localVar type) => r.memberStarts F .value type
  | .elsewhere => []

end Request

end CallChain
