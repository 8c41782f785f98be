import FluxGate.Builtins

/-!
# `router.Router`: first-fit path and method matching

`Match` returns the first route, in insertion order, whose pattern matches the request path
and whose method list admits the request method. A pattern ending in `/*` matches its prefix
with or without the trailing slash; any other pattern matches the path exactly, up to one
trailing slash. The request is kept as the two fields `Match` reads; the lock is not modelled.
-/

namespace FluxGate

structure Route where
  path : String
  serviceName : String
  methods : List String
  deriving DecidableEq, Repr

/-- `router.Router`: its routes in insertion order. -/
structure Router where
  routes : List Route
  deriving DecidableEq, Repr

/-- What `Match` reads of an `*http.Request`: `URL.Path` and `Method`. -/
structure Request where
  path : String
  method : String
  deriving DecidableEq, Repr

namespace Router

def new : Router := ⟨[]⟩

/-- `AddRoute(path, serviceName, methods)`: appended after every route already there. -/
def addRoute (r : Router) (path serviceName : String) (methods : List String) : Router :=
  ⟨r.routes ++ [⟨path, serviceName, methods⟩]⟩

def matchPath (requestPath routePath : String) : Bool :=
  if hasSuffix routePath "*" then
    let base := trimSuffix routePath "*"
    if hasSuffix base "/" then
      let trimmed := trimSuffix base "/"
      requestPath == trimmed || hasPrefix requestPath base
    else hasPrefix requestPath base
  else
    let trim := fun s => if s = "/" then s else trimSuffix s "/"
    trim requestPath == trim routePath

/-- `matchMethod(requestMethod, allowedMethods)`: an empty list admits every method. -/
def matchMethod (requestMethod : String) (allowedMethods : List String) : Bool :=
  allowedMethods.isEmpty || allowedMethods.any fun method => equalFold requestMethod method

/-- `Match(req)`: the first route that matches, `none` for nil. -/
def «match» (r : Router) (req : Request) : Option Route :=
  r.routes.find? fun route => matchPath req.path route.path && matchMethod req.method route.methods

def clear (_ : Router) : Router := new

theorem matchPath_wildcard (requestPath serviceName : String) :
    matchPath requestPath ("/" ++ serviceName ++ "/*") =
      (requestPath == "/" ++ serviceName || hasPrefix requestPath ("/" ++ serviceName ++ "/")) := by
  have h : ("/" ++ serviceName ++ "/*" : String) = ("/" ++ serviceName ++ "/") ++ "*" := by
    simp [String.append_assoc]
  simp only [matchPath, h, hasSuffix_append, trimSuffix_append, if_true]

theorem match_eq_some_iff (r : Router) (req : Request) (route : Route) :
    r.«match» req = some route ↔
      ∃ pre post, r.routes = pre ++ route :: post ∧
        (matchPath req.path route.path && matchMethod req.method route.methods) = true ∧
        ∀ x ∈ pre, (matchPath req.path x.path && matchMethod req.method x.methods) = false := by
  simp only [«match», List.find?_eq_some, Bool.not_eq_true', Bool.not_eq_true]
  exact ⟨fun ⟨h, pre, post, hr, hpre⟩ => ⟨pre, post, hr, h, hpre⟩,
    fun ⟨pre, post, hr, h, hpre⟩ => ⟨h, pre, post, hr, hpre⟩⟩

theorem match_eq_none_iff (r : Router) (req : Request) :
    r.«match» req = none ↔
      ∀ x ∈ r.routes, (matchPath req.path x.path && matchMethod req.method x.methods) = false := by
  simp [«match»]

end Router

end FluxGate
