import GhostApi.Scenarios.Bundle

/-!
# Access to the local server

Every request passes the access control first and then the routes in the
order of their registration. The control looks at the canonical path only,
the routes at the method and the path as it was sent.
-/

namespace GhostApi.Server

open Js
open Scenarios (lowerChar toLowerCase startsWith)

def AUTH_COOKIE : String := "ghostapi_dashboard_token"

structure ServerConfig where
  host : String
  authToken : Option String
  https : Option Bool

/-- What the handlers read of a request; a token of the query is a single text or none. -/
structure Request where
  method : String
  path : String
  queryToken : Option String
  origin : Option String
  host : Option String
  authorization : Option String
  ghostapiToken : Option String
  cookie : Option String
  localPort : String

structure Url where
  protocol : String
  host : String
  hostname : String
  port : String

inductive Outcome
  | next
  | forbiddenOrigin
  | setCookie (token : String) (secure : Bool)
  | unauthorized
  | threw
  deriving DecidableEq

/-! ## Canonical paths -/

/-- path.replace(/\/\x7b2,\x7d/g, "/") -/
def collapseSlashes : List Char → List Char
  | '/' :: '/' :: rest => collapseSlashes ('/' :: rest)
  | c :: rest => c :: collapseSlashes rest
  | [] => []

/-- path.replace(/\/$/, "") -/
def dropSlash (path : List Char) : List Char := if path.getLast? = some '/' then path.dropLast else path

def canonicalPath (path : String) : String :=
  let normalized := String.ofList ((dropSlash (collapseSlashes path.toList)).map lowerChar)
  if normalized = "" then "/" else normalized

def isDashboardPath (path : String) : Bool :=
  path == "/dashboard" || startsWith path "/dashboard/" || path == "/events" || path == "/api" || startsWith path "/api/"

def isPublicRoute (path : String) : Bool := path == "/" || path == "/health"

/-! ## The token of a request -/

def dropBrackets (host : List Char) : List Char :=
  let host := if host.head? = some '[' then host.tail else host
  if host.getLast? = some ']' then host.dropLast else host

def isLoopbackHost (host : String) : Bool :=
  let normalized := String.ofList (dropBrackets (toLowerCase (trim host)).toList)
  normalized == "localhost" || normalized == "127.0.0.1" || normalized == "::1"

/-- The name and the value of one part of a cookie header. -/
def cookieParts (cookie : List Char) : String × String :=
  let cookie := (trim (String.ofList cookie)).toList
  (String.ofList (cookie.takeWhile (· ≠ '=')), String.ofList ((cookie.dropWhile (· ≠ '=')).drop 1))

def cookieToken (header : String) : Option String :=
  ((header.toList.splitOn ';').map cookieParts).find? (·.1 == AUTH_COOKIE) |>.map Prod.snd

section Control

variable (parseUrl : String → Option Url) (decodeURIComponent : String → Option String)

/-- The token that the request presents; none when the decoding of a cookie throws. -/
def readRequestToken (request : Request) : Option (Option String) :=
  let credential := request.authorization.filter fun authorization => startsWith (toLowerCase authorization) "bearer "
  match credential with
  | some authorization => some (some (trim (String.ofList (authorization.toList.drop 7))))
  | none => match (request.ghostapiToken.map trim).filter (· ≠ "") with
    | some headerToken => some (some headerToken)
    | none => match request.cookie.bind cookieToken with
      | some value => (decodeURIComponent value).map some
      | none => some none

def tokenMatches (candidate expected : Option String) : Bool :=
  match candidate.filter (· ≠ ""), expected.filter (· ≠ "") with
  | some candidate, some expected => candidate == expected
  | _, _ => false

def isAllowedOrigin (origin : String) (request : Request) (remote : Bool) : Bool := match parseUrl origin with
  | none => false
  | some parsed =>
    if remote then some (toLowerCase parsed.host) == request.host.map toLowerCase
    else
      let originPort := if parsed.port ≠ "" then parsed.port else if parsed.protocol = "https:" then "443" else "80"
      isLoopbackHost parsed.hostname && originPort == request.localPort

def dashboardAccessControl (config : ServerConfig) (request : Request) : Outcome :=
  let remote := !isLoopbackHost config.host
  let path := canonicalPath request.path
  let protectedRoute := isDashboardPath path || !isPublicRoute path
  if ¬protectedRoute then .next
  else if request.origin.any fun origin => !isAllowedOrigin parseUrl origin request remote then .forbiddenOrigin
  else if ¬remote then .next
  else if request.method = "GET" ∧ path = "/dashboard" ∧ tokenMatches request.queryToken config.authToken then
    .setCookie (request.queryToken.getD "") (config.https == some true)
  else match readRequestToken decodeURIComponent request with
    | none => .threw
    | some token => if tokenMatches token config.authToken then .next else .unauthorized

end Control

/-! ## Routes -/

inductive Handler
  | assets
  | redirect
  | health
  | readiness
  | dashboard
  | dashboardCss
  | dashboardJs
  | events
  | api (path : String)
  | proxy
  | options
  deriving DecidableEq

inductive Segment
  | literal (text : String)
  | param
  deriving DecidableEq

structure Route where
  method : String
  path : Option (List Segment)
  handler : Handler
  deriving DecidableEq

/-- What follows a text at the start of a path, whatever the case of its letters. -/
def stripText : List Char → List Char → Option (List Char)
  | [], path => some path
  | t :: text, c :: path => if c.toLower = t then stripText text path else none
  | _ :: _, [] => none

def matchSegments : List Segment → List Char → Bool
  | [], path => path.isEmpty || path == ['/']
  | .literal text :: segments, '/' :: path => match stripText text.toList path with
    | some rest => matchSegments segments rest
    | none => false
  | .param :: segments, '/' :: path =>
    !(path.takeWhile (· ≠ '/')).isEmpty && matchSegments segments (path.dropWhile (· ≠ '/'))
  | _, _ => false

def Route.matchesPath (route : Route) (path : String) : Bool := match route.path with
  | some segments => matchSegments segments path.toList
  | none => true

def Route.handlesMethod (route : Route) (method : String) : Bool :=
  toLowerCase method == route.method || (toLowerCase method == "head" && route.method == "get")

def Route.accepts (route : Route) (request : Request) : Bool :=
  route.handlesMethod request.method && route.matchesPath request.path

def page (handler : Handler) (path : List String) : Route := ⟨"get", some (path.map .literal), handler⟩

def apiRoute (method path : String) (segments : List Segment) : Route :=
  ⟨method, some (.literal "api" :: segments), .api (method ++ " /api/" ++ path)⟩

def PROXY_METHODS : List String := ["get", "post", "put", "patch", "delete", "head", "options"]

def namedRoutes : List Route :=
  [page .redirect [], page .health ["health"], page .readiness ["health", "readiness"],
   page .dashboard ["dashboard"], page .dashboardCss ["dashboard", "styles.css"], page .dashboardJs ["dashboard", "app.js"],
   page .events ["events"],
   apiRoute "get" "events" [.literal "events"], apiRoute "get" "providers" [.literal "providers"],
   apiRoute "get" "fault-lab" [.literal "fault-lab"], apiRoute "post" "fault-lab" [.literal "fault-lab"],
   apiRoute "post" "ai-rules" [.literal "ai-rules"], apiRoute "post" "setup" [.literal "setup"],
   apiRoute "get" "scenarios" [.literal "scenarios"], apiRoute "post" "scenarios" [.literal "scenarios"],
   apiRoute "post" "scenarios/save-from-traffic" [.literal "scenarios", .literal "save-from-traffic"],
   apiRoute "post" "scenarios/:id/replay" [.literal "scenarios", .param, .literal "replay"],
   apiRoute "get" "scenarios/:id/export" [.literal "scenarios", .param, .literal "export"],
   apiRoute "post" "scenarios/:id/share" [.literal "scenarios", .param, .literal "share"],
   apiRoute "post" "clear" [.literal "clear"], apiRoute "get" "agent-prompt" [.literal "agent-prompt"],
   apiRoute "get" "events/:id/test" [.literal "events", .param, .literal "test"],
   apiRoute "get" "safety-report" [.literal "safety-report"]]

def proxyRoutes : List Route :=
  PROXY_METHODS.map fun method => ⟨method, none, if method = "options" then .options else .proxy⟩

def isAssetPath (path : String) : Bool :=
  toLowerCase path == "/docs/assets" || startsWith (toLowerCase path) "/docs/assets/"

/-- The handler that answers a request. The static files under /docs/assets come first: for GET and HEAD they are answered
when there is such a file. -/
def registerRoutes (hasAsset : String → Bool) (request : Request) : Option Handler :=
  if isAssetPath request.path ∧ (request.method = "GET" ∨ request.method = "HEAD") ∧
      hasAsset request.path then some .assets
  else ((namedRoutes ++ proxyRoutes).find? (·.accepts request)).map Route.handler

/-! ## Paths that need no token -/

theorem toLower_eq_slash {c : Char} (h : c.toLower = '/') : c = '/' := by
  by_cases hUpper : 'A'.val ≤ c.val ∧ c.val ≤ 'Z'.val
  · rw [show c.toLower = _ from dif_pos hUpper] at h
    have hValue := congrArg (fun d : Char => d.val.toNat) h
    have hLow : 65 ≤ c.val.toNat := UInt32.le_iff_toNat_le.mp hUpper.1
    have hHigh : c.val.toNat ≤ 90 := UInt32.le_iff_toNat_le.mp hUpper.2
    have hShift : ('a'.val - 'A'.val).toNat = 32 := rfl
    have hSlash : '/'.val.toNat = 47 := rfl
    dsimp only at hValue
    rw [UInt32.toNat_add, hShift, hSlash] at hValue
    omega
  · rwa [show c.toLower = c from dif_neg hUpper] at h

theorem lowerChar_eq {c d : Char} (h : lowerChar c = d) (hKelvin : d ≠ 'k') : c.toLower = d := by
  rw [lowerChar] at h
  split at h
  · exact absurd h.symm hKelvin
  · exact h

theorem collapseSlashes_cons {c : Char} (h : c ≠ '/') (rest : List Char) :
    collapseSlashes (c :: rest) = c :: collapseSlashes rest := by
  rw [collapseSlashes]
  exact fun _ hSlash _ => h hSlash

theorem collapseSlashes_slash (rest : List Char) : ∃ count after, '/' :: rest = List.replicate (count + 1) '/' ++ after ∧
    after.head? ≠ some '/' ∧ collapseSlashes ('/' :: rest) = '/' :: collapseSlashes after := by
  induction rest with
  | nil => exact ⟨0, [], rfl, by simp, rfl⟩
  | cons c rest ih =>
    by_cases hSlash : c = '/'
    · subst hSlash
      obtain ⟨count, after, hSplit, hHead, hCollapsed⟩ := ih
      refine ⟨count + 1, after, ?_, hHead, ?_⟩
      · rw [hSplit]
        rfl
      · rw [collapseSlashes]
        exact hCollapsed
    · refine ⟨0, c :: rest, rfl, by simpa using hSlash, ?_⟩
      rw [collapseSlashes]
      exact fun _ _ hTail => hSlash (List.cons.inj hTail).1

theorem collapseSlashes_eq_nil {path : List Char} (h : collapseSlashes path = []) : path = [] := by
  cases path with
  | nil => rfl
  | cons c rest =>
    by_cases hSlash : c = '/'
    · subst hSlash
      obtain ⟨_, _, _, _, hCollapsed⟩ := collapseSlashes_slash rest
      rw [hCollapsed] at h
      cases h
    · rw [collapseSlashes_cons hSlash] at h
      cases h

theorem of_collapseSlashes_slash {path rest : List Char} (h : collapseSlashes path = '/' :: rest) :
    ∃ count after, path = List.replicate (count + 1) '/' ++ after ∧ after.head? ≠ some '/' ∧ collapseSlashes after = rest := by
  cases path with
  | nil => cases h
  | cons c path =>
    by_cases hSlash : c = '/'
    · subst hSlash
      obtain ⟨count, after, hSplit, hHead, hCollapsed⟩ := collapseSlashes_slash path
      rw [hCollapsed] at h
      exact ⟨count, after, hSplit, hHead, (List.cons.inj h).2⟩
    · rw [collapseSlashes_cons hSlash] at h
      exact absurd (List.cons.inj h).1 hSlash

theorem slashes_of_collapseSlashes {path : List Char} (h : collapseSlashes path = ['/']) :
    ∃ count, path = List.replicate (count + 1) '/' := by
  obtain ⟨count, after, hSplit, _, hAfter⟩ := of_collapseSlashes_slash h
  refine ⟨count, ?_⟩
  rw [hSplit, collapseSlashes_eq_nil hAfter, List.append_nil]

theorem of_collapseSlashes_word {path word rest : List Char} (hWord : ∀ c ∈ word, c ≠ '/')
    (h : collapseSlashes path = word ++ rest) : ∃ after, path = word ++ after ∧ collapseSlashes after = rest := by
  induction word generalizing path with
  | nil => exact ⟨path, rfl, h⟩
  | cons c word ih =>
    rw [List.forall_mem_cons] at hWord
    cases path with
    | nil => cases h
    | cons d path =>
      by_cases hSlash : d = '/'
      · subst hSlash
        obtain ⟨_, _, _, _, hCollapsed⟩ := collapseSlashes_slash path
        rw [hCollapsed] at h
        exact absurd (List.cons.inj h).1.symm hWord.1
      · rw [collapseSlashes_cons hSlash] at h
        obtain ⟨rfl, hRest⟩ := List.cons.inj h
        obtain ⟨after, rfl, hAfter⟩ := ih hWord.2 hRest
        exact ⟨after, rfl, hAfter⟩

theorem dropSlash_cases (path : List Char) : path = dropSlash path ∨ path = dropSlash path ++ ['/'] := by
  rw [dropSlash]
  split
  · rename_i hLast
    exact .inr (List.dropLast_append_getLast? '/' hLast).symm
  · exact .inl rfl

theorem root_of_canonicalPath {path : String} (h : canonicalPath path = "/") : ∃ count, path.toList = List.replicate count '/' := by
  rw [canonicalPath] at h
  split at h
  · rename_i hEmpty
    have hNil : dropSlash (collapseSlashes path.toList) = [] := by
      simpa using congrArg String.toList hEmpty
    rcases dropSlash_cases (collapseSlashes path.toList) with hSame | hSlash
    · exact ⟨0, collapseSlashes_eq_nil (hSame.trans hNil)⟩
    · rw [hNil] at hSlash
      obtain ⟨count, hPath⟩ := slashes_of_collapseSlashes hSlash
      exact ⟨count + 1, hPath⟩
  · have hList : (dropSlash (collapseSlashes path.toList)).map lowerChar = ['/'] := by
      simpa using congrArg String.toList h
    obtain ⟨c, hDropped, hLower⟩ := List.map_eq_singleton_iff.mp hList
    rw [toLower_eq_slash (lowerChar_eq hLower (by simp))] at hDropped
    rcases dropSlash_cases (collapseSlashes path.toList) with hSame | hSlash
    · rw [hDropped] at hSame
      rw [hSame] at hDropped
      cases hDropped
    · rw [hDropped] at hSlash
      obtain ⟨_, after, _, hHead, hAfter⟩ := of_collapseSlashes_slash hSlash
      obtain ⟨count, rfl⟩ := slashes_of_collapseSlashes hAfter
      exact absurd rfl hHead

theorem map_toLower {letters word : List Char} (h : letters.map lowerChar = word) (hKelvin : 'k' ∉ word) :
    letters.map Char.toLower = word := by
  induction letters generalizing word with
  | nil => exact h
  | cons c letters ih =>
    subst h
    rw [List.map_cons, List.mem_cons, not_or] at hKelvin
    rw [List.map_cons, List.map_cons, lowerChar_eq rfl (Ne.symm hKelvin.1), ih rfl hKelvin.2]

theorem health_of_canonicalPath {path : String} (h : canonicalPath path = "/health") : ∃ leading letters trailing,
    path.toList = List.replicate (leading + 1) '/' ++ (letters ++ List.replicate trailing '/') ∧
      letters.map Char.toLower = "health".toList := by
  rw [canonicalPath] at h
  split at h
  · exact absurd h (by simp)
  · have hList : (dropSlash (collapseSlashes path.toList)).map lowerChar = '/' :: "health".toList := by
      simpa using congrArg String.toList h
    obtain ⟨c, letters, hDropped, hSlash, hLetters⟩ := List.map_eq_cons_iff.mp hList
    rw [toLower_eq_slash (lowerChar_eq hSlash (by simp))] at hDropped
    have hLower := map_toLower hLetters (by simp)
    have hWord : ∀ c ∈ letters, c ≠ '/' := by
      rintro c hMem rfl
      have hSlashMem : '/' ∈ letters.map Char.toLower := List.mem_map.mpr ⟨'/', hMem, rfl⟩
      rw [hLower] at hSlashMem
      revert hSlashMem
      simp
    obtain ⟨rest, hCollapsed, hRest⟩ : ∃ rest, collapseSlashes path.toList = '/' :: (letters ++ rest) ∧ (rest = [] ∨ rest = ['/']) := by
      rcases dropSlash_cases (collapseSlashes path.toList) with hSame | hTrailing
      · exact ⟨[], by rw [hSame, hDropped, List.append_nil], .inl rfl⟩
      · exact ⟨['/'], by rw [hTrailing, hDropped, List.cons_append], .inr rfl⟩
    obtain ⟨leading, after, hPath, _, hAfter⟩ := of_collapseSlashes_slash hCollapsed
    obtain ⟨ending, rfl, hEnd⟩ := of_collapseSlashes_word hWord hAfter
    rcases hRest with rfl | rfl
    · rw [collapseSlashes_eq_nil hEnd] at hPath
      exact ⟨leading, letters, 0, hPath, hLower⟩
    · obtain ⟨count, rfl⟩ := slashes_of_collapseSlashes hEnd
      exact ⟨leading, letters, count + 1, hPath, hLower⟩

/-! ## The handlers that need no token -/

theorem matchSegments_literal {text : String} {segments : List Segment} {path : List Char} :
    matchSegments (.literal text :: segments) path = true ↔ ∃ rest after, path = '/' :: rest ∧
      stripText text.toList rest = some after ∧ matchSegments segments after = true := by
  constructor
  · intro h
    unfold matchSegments at h
    split at h
    · rename_i hNil
      cases hNil
    · rename_i text' segments' rest hSame
      cases hSame
      split at h
      · exact ⟨rest, _, rfl, ‹_›, h⟩
      · cases h
    · rename_i hSame
      cases hSame
    · cases h
  · rintro ⟨rest, after, rfl, hStrip, hAfter⟩
    rw [matchSegments, hStrip]
    exact hAfter

def Route.opening (route : Route) : Option Char := match route.path with
  | some (.literal text :: _) => text.toList.head?
  | _ => none

theorem opening_of_matchesPath {route : Route} {path : String} {c : Char} (hOpening : route.opening = some c)
    (h : route.matchesPath path = true) : ∃ d rest, path.toList = '/' :: d :: rest ∧ d.toLower = c := by
  rw [Route.opening] at hOpening
  split at hOpening
  · rename_i text segments hPath
    rw [Route.matchesPath, hPath] at h
    obtain ⟨rest, after, hList, hStrip, _⟩ := matchSegments_literal.mp h
    obtain ⟨letters, hText⟩ := List.head?_eq_some_iff.mp hOpening
    rw [hText] at hStrip
    cases rest with
    | nil => cases hStrip
    | cons d rest =>
      rw [stripText] at hStrip
      split at hStrip
      · exact ⟨d, rest, hList, ‹_›⟩
      · cases hStrip
  · cases hOpening

theorem stripText_letters {text letters : List Char} (h : letters.map Char.toLower = text) (rest : List Char) :
    stripText text (letters ++ rest) = some rest := by
  induction letters generalizing text with
  | nil =>
    subst h
    rfl
  | cons c letters ih =>
    subst h
    rw [List.map_cons, List.cons_append, stripText, if_pos rfl]
    exact ih rfl

theorem namedRoutes_eq : namedRoutes = page .redirect [] :: page .health ["health"] :: namedRoutes.drop 2 := rfl

theorem routes_checked :
    ((namedRoutes.drop 2).all fun route => route.opening.any fun c => decide (c ≠ '/') &&
      (decide (c ≠ 'h') || decide (route.path = some [.literal "health", .literal "readiness"]))) = true ∧
    (∀ route ∈ proxyRoutes, (route.handler = .proxy ∨ route.handler = .options) ∧ route.path = none ∧
      route.method ∈ PROXY_METHODS) ∧
    isDashboardPath "/" = false ∧ isDashboardPath "/health" = false := by
  decide +kernel

theorem namedRoutes_opening : ∀ route ∈ namedRoutes.drop 2, ∃ c, route.opening = some c ∧ c ≠ '/' ∧
    (c = 'h' → route.path = some [.literal "health", .literal "readiness"]) := by
  intro route hRoute
  obtain ⟨c, hOpening, hTest⟩ := (Option.any_eq_true _ _).mp (List.all_eq_true.mp routes_checked.1 route hRoute)
  simp only [Bool.and_eq_true, Bool.or_eq_true, decide_eq_true_eq] at hTest
  exact ⟨c, hOpening, hTest.1, fun hH => hTest.2.resolve_left (not_not.mpr hH)⟩

section Paths

variable {path : String} {route : Route}

theorem not_matches_slashes (hRoute : route ∈ namedRoutes.drop 2)
    (hSecond : ∀ d rest, path.toList = '/' :: d :: rest → d = '/') : route.matchesPath path = false := by
  obtain ⟨c, hOpening, hSlash, _⟩ := namedRoutes_opening route hRoute
  by_contra hMatches
  obtain ⟨d, rest, hList, hLower⟩ := opening_of_matchesPath hOpening (by simpa using hMatches)
  rw [hSecond d rest hList] at hLower
  exact hSlash hLower.symm

theorem not_matches_health (hRoute : route ∈ namedRoutes.drop 2) {letters : List Char} {trailing : Nat}
    (hPath : path.toList = '/' :: (letters ++ List.replicate trailing '/'))
    (hLetters : letters.map Char.toLower = "health".toList) : route.matchesPath path = false := by
  obtain ⟨c, hOpening, _, hReadiness⟩ := namedRoutes_opening route hRoute
  by_contra hMatches
  have hMatches : route.matchesPath path = true := by simpa using hMatches
  obtain ⟨d, rest, hList, hLower⟩ := opening_of_matchesPath hOpening hMatches
  have hFirst : d.toLower = 'h' := by
    cases letters with
    | nil => cases hLetters
    | cons e letters =>
      rw [hPath] at hList
      rw [← (List.cons.inj (List.cons.inj hList).2).1]
      exact (List.cons.inj hLetters).1
  rw [Route.matchesPath, hReadiness (hLower.symm.trans hFirst)] at hMatches
  obtain ⟨rest, after, hAgain, hStrip, hAfter⟩ := matchSegments_literal.mp hMatches
  rw [hPath] at hAgain
  rw [← (List.cons.inj hAgain).2, stripText_letters hLetters] at hStrip
  obtain ⟨ending, _, hEnding, hReadinessStrip, _⟩ := matchSegments_literal.mp hAfter
  rw [← Option.some.inj hStrip] at hEnding
  have hReadinessText : "readiness".toList = 'r' :: "eadiness".toList := rfl
  rw [hReadinessText] at hReadinessStrip
  cases trailing with
  | zero => cases hEnding
  | succ count =>
    rw [List.replicate_succ] at hEnding
    rw [← (List.cons.inj hEnding).2] at hReadinessStrip
    cases count with
    | zero => cases hReadinessStrip
    | succ count =>
      rw [List.replicate_succ, stripText, if_neg (by simp)] at hReadinessStrip
      cases hReadinessStrip

end Paths

/-! ## Requests without a token -/

/-- The paths of the redirect and of health, up to the case of the letters. -/
def PUBLIC_PATHS : List (List Char) := ["", "/", "/health", "/health/"].map String.toList

/-- The method and the path of the redirect or of health. -/
def IsPublicPage (request : Request) : Prop :=
  (toLowerCase request.method = "get" ∨ toLowerCase request.method = "head") ∧
    request.path.toList.map Char.toLower ∈ PUBLIC_PATHS

theorem find?_proxyRoutes (request : Request) : (toLowerCase request.method ∉ PROXY_METHODS ∧
      proxyRoutes.find? (·.accepts request) = none) ∨ toLowerCase request.method ∈ PROXY_METHODS ∧
    ∃ route, proxyRoutes.find? (·.accepts request) = some route ∧ (route.handler = .proxy ∨ route.handler = .options) := by
  have hHandlers := routes_checked.2.1
  by_cases hMethod : toLowerCase request.method ∈ PROXY_METHODS
  · refine .inr ⟨hMethod, ?_⟩
    have hRoute : (⟨toLowerCase request.method, none, if toLowerCase request.method = "options" then .options else .proxy⟩ : Route) ∈
        proxyRoutes := List.mem_map_of_mem hMethod
    have hAny : (proxyRoutes.find? (·.accepts request)).isSome := by
      refine List.find?_isSome.mpr ⟨_, hRoute, ?_⟩
      simp [Route.accepts, Route.handlesMethod, Route.matchesPath]
    obtain ⟨route, hFound⟩ := Option.isSome_iff_exists.mp hAny
    exact ⟨route, hFound, (hHandlers route (List.mem_of_find?_eq_some hFound)).1⟩
  · refine .inl ⟨hMethod, List.find?_eq_none.mpr fun route hRoute hAccepts => hMethod ?_⟩
    obtain ⟨_, _, hOwn⟩ := hHandlers route hRoute
    rw [Route.accepts, Bool.and_eq_true, Route.handlesMethod, Bool.or_eq_true, Bool.and_eq_true, beq_iff_eq, beq_iff_eq] at hAccepts
    rcases hAccepts.1 with hSame | hHead
    · rwa [hSame]
    · rw [hHead.1]
      simp [PROXY_METHODS]

section Presented

variable {decodeURIComponent : String → Option String} {config : ServerConfig} {request : Request}

/-- The token stands in the authorization header, in the token header, in the cookie or in the query. -/
def Presents (decodeURIComponent : String → Option String) (request : Request) (token : String) : Prop :=
  (∃ authorization, request.authorization = some authorization ∧ startsWith (toLowerCase authorization) "bearer " = true ∧
    trim (String.ofList (authorization.toList.drop 7)) = token) ∨
  request.ghostapiToken.map trim = some token ∨
  (∃ value, request.cookie.bind cookieToken = some value ∧ decodeURIComponent value = some token) ∨
  request.queryToken = some token

/-- No token that the request presents is the configured one. -/
def LacksToken (decodeURIComponent : String → Option String) (config : ServerConfig) (request : Request) : Prop :=
  ∀ token, config.authToken = some token → ¬ Presents decodeURIComponent request token

theorem tokenMatches_eq_true {candidate expected : Option String} (h : tokenMatches candidate expected = true) :
    ∃ token, candidate = some token ∧ expected = some token := by
  unfold tokenMatches at h
  split at h
  · rename_i token other hCandidate hExpected
    have hSame : token = other := beq_iff_eq.mp h
    subst hSame
    exact ⟨token, (Option.filter_eq_some_iff.mp hCandidate).1, (Option.filter_eq_some_iff.mp hExpected).1⟩
  · cases h

theorem presents_of_readRequestToken {token : String}
    (h : readRequestToken decodeURIComponent request = some (some token)) : Presents decodeURIComponent request token := by
  unfold readRequestToken at h
  dsimp only at h
  split at h
  · rename_i authorization hCredential
    obtain ⟨hAuthorization, hBearer⟩ := Option.filter_eq_some_iff.mp hCredential
    exact .inl ⟨authorization, hAuthorization, hBearer, Option.some.inj (Option.some.inj h)⟩
  · split at h
    · rename_i headerToken hHeader
      rw [← Option.some.inj (Option.some.inj h)]
      exact .inr (.inl (Option.filter_eq_some_iff.mp hHeader).1)
    · split at h
      · rename_i value hCookie
        obtain ⟨decoded, hDecoded, hSame⟩ := Option.map_eq_some_iff.mp h
        rw [Option.some.inj hSame] at hDecoded
        exact .inr (.inr (.inl ⟨value, hCookie, hDecoded⟩))
      · cases h

theorem isDashboardPath_of_public {path : String} (h : isPublicRoute path = true) : isDashboardPath path = false := by
  rw [isPublicRoute, Bool.or_eq_true, beq_iff_eq, beq_iff_eq] at h
  cases h with
  | inl hRoot => exact hRoot ▸ routes_checked.2.2.1
  | inr hHealth => exact hHealth ▸ routes_checked.2.2.2

theorem next_iff_public (parseUrl : String → Option Url) (hRemote : isLoopbackHost config.host = false)
    (hToken : LacksToken decodeURIComponent config request) :
    dashboardAccessControl parseUrl decodeURIComponent config request = .next ↔
      isPublicRoute (canonicalPath request.path) = true := by
  constructor
  · intro h
    by_contra hPublic
    rw [Bool.not_eq_true] at hPublic
    unfold dashboardAccessControl at h
    simp only [hRemote, hPublic] at h
    simp only [Bool.not_false, Bool.or_true, not_true_eq_false, if_false] at h
    split at h
    · cases h
    · split at h
      · cases h
      · split at h
        · cases h
        · split at h
          · rename_i token hRead hMatches
            obtain ⟨presented, hPresented, hExpected⟩ := tokenMatches_eq_true hMatches
            rw [hPresented] at hRead
            exact hToken presented hExpected (presents_of_readRequestToken hRead)
          · cases h
  · intro hPublic
    unfold dashboardAccessControl
    simp only [hPublic, isDashboardPath_of_public hPublic]
    simp

end Presented

/-! ## The dispatch of the public paths -/

section Dispatch

variable {path : String} {request : Request}

theorem matchSegments_nil (path : List Char) : matchSegments [] path = true ↔ path = [] ∨ path = ['/'] := by
  have hUnfolded : matchSegments [] path = (path.isEmpty || path == ['/']) := by
    cases path <;> rfl
  rw [hUnfolded, Bool.or_eq_true, List.isEmpty_iff, beq_iff_eq]

theorem mem_publicPaths {ending : List Char} (h : ending = [] ∨ ending = ['/']) : ending.map Char.toLower ∈ PUBLIC_PATHS ∧
    Char.toLower '/' :: ("health".toList ++ ending.map Char.toLower) ∈ PUBLIC_PATHS := by
  obtain rfl | rfl := h
  all_goals decide

theorem redirect_matchesPath (h : (page .redirect []).matchesPath path = true) : path.toList.map Char.toLower ∈ PUBLIC_PATHS :=
  (mem_publicPaths ((matchSegments_nil path.toList).mp h)).1

theorem stripText_eq_some {text path rest : List Char} (h : stripText text path = some rest) :
    ∃ letters, path = letters ++ rest ∧ letters.map Char.toLower = text := by
  induction text generalizing path with
  | nil => exact ⟨[], Option.some.inj h, rfl⟩
  | cons t text ih =>
    cases path with
    | nil => cases h
    | cons c path =>
      rw [stripText] at h
      split at h
      · rename_i hLetter
        obtain ⟨letters, rfl, hLetters⟩ := ih h
        exact ⟨c :: letters, rfl, by rw [List.map_cons, hLetter, hLetters]⟩
      · cases h

theorem health_matchesPath (h : (page .health ["health"]).matchesPath path = true) :
    path.toList.map Char.toLower ∈ PUBLIC_PATHS := by
  obtain ⟨rest, after, hPath, hStrip, hAfter⟩ := matchSegments_literal.mp h
  obtain ⟨letters, rfl, hLetters⟩ := stripText_eq_some hStrip
  rw [hPath, List.map_cons, List.map_append, hLetters]
  exact (mem_publicPaths ((matchSegments_nil after).mp hAfter)).2

theorem matchesPath_of_mem (h : path.toList.map Char.toLower ∈ PUBLIC_PATHS) :
    (page .redirect []).matchesPath path = true ∨ (page .health ["health"]).matchesPath path = true := by
  have hHealth : ∀ ending : List Char, path.toList.map Char.toLower = '/' :: ("health".toList ++ ending) →
      ending = [] ∨ ending = ['/'] → (page .health ["health"]).matchesPath path = true := by
    intro ending hPath hEnding
    obtain ⟨c, rest, hList, hSlash, hRest⟩ := List.map_eq_cons_iff.mp hPath
    obtain ⟨word, after, rfl, hWord, hAfter⟩ := List.map_eq_append_iff.mp hRest
    rw [toLower_eq_slash hSlash] at hList
    refine matchSegments_literal.mpr ⟨word ++ after, after, hList, stripText_letters hWord after, (matchSegments_nil after).mpr ?_⟩
    cases hEnding with
    | inl hEmpty =>
      rw [hEmpty] at hAfter
      exact .inl (List.map_eq_nil_iff.mp hAfter)
    | inr hLast =>
      rw [hLast] at hAfter
      obtain ⟨d, hSingle, hLower⟩ := List.map_eq_singleton_iff.mp hAfter
      rw [hSingle, toLower_eq_slash hLower]
      exact .inr rfl
  simp only [PUBLIC_PATHS, List.map_cons, List.map_nil, List.mem_cons, List.not_mem_nil, or_false] at h
  obtain hEmpty | hSlash | hPath | hPath := h
  · left
    exact (matchSegments_nil path.toList).mpr (.inl (List.map_eq_nil_iff.mp hEmpty))
  · left
    obtain ⟨c, hSingle, hLower⟩ := List.map_eq_singleton_iff.mp hSlash
    rw [toLower_eq_slash hLower] at hSingle
    exact (matchSegments_nil path.toList).mpr (.inr hSingle)
  · exact .inr (hHealth [] hPath (.inl rfl))
  · exact .inr (hHealth ['/'] hPath (.inr rfl))

theorem matchesPath_of_public (hPublic : isPublicRoute (canonicalPath path) = true) {route : Route} (hRoute : route ∈ namedRoutes)
    (hMatches : route.matchesPath path = true) :
    (route = page .redirect [] ∨ route = page .health ["health"]) ∧ path.toList.map Char.toLower ∈ PUBLIC_PATHS := by
  rw [namedRoutes_eq, List.mem_cons, List.mem_cons] at hRoute
  obtain rfl | rfl | hLater := hRoute
  · exact ⟨.inl rfl, redirect_matchesPath hMatches⟩
  · exact ⟨.inr rfl, health_matchesPath hMatches⟩
  · exfalso
    have hFalse : route.matchesPath path = false := by
      rw [isPublicRoute, Bool.or_eq_true, beq_iff_eq, beq_iff_eq] at hPublic
      cases hPublic with
      | inl hRoot =>
        obtain ⟨count, hSlashes⟩ := root_of_canonicalPath hRoot
        refine not_matches_slashes hLater fun d rest hPath => ?_
        have hMem : d ∈ List.replicate count '/' := by
          rw [← hSlashes, hPath]
          simp
        exact List.eq_of_mem_replicate hMem
      | inr hHealth =>
        obtain ⟨leading, letters, trailing, hPath, hLetters⟩ := health_of_canonicalPath hHealth
        cases leading with
        | zero => exact not_matches_health hLater hPath hLetters
        | succ leading =>
          refine not_matches_slashes hLater fun d rest hSame => ?_
          rw [hPath, List.replicate_succ, List.replicate_succ] at hSame
          exact (List.cons.inj (List.cons.inj hSame).2).1.symm
    rw [hFalse] at hMatches
    cases hMatches

theorem lowerChar_slash : lowerChar '/' ≠ 'd' := by decide

theorem isAssetPath_of_public (hPublic : isPublicRoute (canonicalPath path) = true) : isAssetPath path = false := by
  have hSecond : ∀ d rest, path.toList = '/' :: d :: rest → lowerChar d ≠ 'd' := by
    intro d rest hPath
    rw [isPublicRoute, Bool.or_eq_true, beq_iff_eq, beq_iff_eq] at hPublic
    cases hPublic with
    | inl hRoot =>
      obtain ⟨count, hSlashes⟩ := root_of_canonicalPath hRoot
      have hMem : d ∈ List.replicate count '/' := by
        rw [← hSlashes, hPath]
        simp
      rw [List.eq_of_mem_replicate hMem]
      exact lowerChar_slash
    | inr hHealth =>
      obtain ⟨leading, letters, trailing, hSplit, hLetters⟩ := health_of_canonicalPath hHealth
      rw [hPath] at hSplit
      cases leading with
      | zero =>
        cases letters with
        | nil => cases hLetters
        | cons letter letters =>
          have hLetter : letter.toLower = 'h' := (List.cons.inj hLetters).1
          have hSame : d = letter := (List.cons.inj (List.cons.inj hSplit).2).1
          intro hD
          rw [hSame] at hD
          rw [lowerChar_eq hD (by simp)] at hLetter
          exact absurd hLetter (by simp)
      | succ leading =>
        rw [List.replicate_succ, List.replicate_succ] at hSplit
        rw [(List.cons.inj (List.cons.inj hSplit).2).1]
        exact lowerChar_slash
  have hPrefix : ∀ rest, path.toList.map lowerChar ≠ "/docs/assets".toList ++ rest := by
    intro rest hPath
    obtain ⟨c, after, hList, hSlash, hAfter⟩ := List.map_eq_cons_iff.mp hPath
    obtain ⟨d, after, rfl, hD, _⟩ := List.map_eq_cons_iff.mp hAfter
    rw [toLower_eq_slash (lowerChar_eq hSlash (by simp))] at hList
    exact hSecond d after hList hD
  rw [isAssetPath, Bool.or_eq_false_iff, startsWith]
  constructor
  · rw [beq_eq_false_iff_ne]
    intro hSame
    refine hPrefix [] ?_
    rw [List.append_nil, ← hSame, toLowerCase, String.toList_ofList]
  · rw [← Bool.not_eq_true, List.isPrefixOf_iff_prefix, toLowerCase, String.toList_ofList]
    rintro ⟨rest, hRest⟩
    rw [String.toList_ofList] at hRest
    refine hPrefix ("/".toList ++ rest) ?_
    rw [← hRest]
    rfl

theorem registerRoutes_public (hasAsset : String → Bool) (hPublic : isPublicRoute (canonicalPath request.path) = true) :
    (∀ handler, registerRoutes hasAsset request = some handler → handler = .redirect ∨ handler = .health) ↔
      (IsPublicPage request ∨ toLowerCase request.method ∉ PROXY_METHODS) := by
  have hDispatch : registerRoutes hasAsset request = ((namedRoutes ++ proxyRoutes).find? (·.accepts request)).map Route.handler := by
    rw [registerRoutes, isAssetPath_of_public hPublic]
    simp
  rw [hDispatch, List.find?_append]
  by_cases hPage : IsPublicPage request
  · refine iff_of_true ?_ (.inl hPage)
    have hMethod : ∀ handler path, (page handler path).handlesMethod request.method = true := by
      intro handler path
      rw [Route.handlesMethod]
      obtain ⟨hGet | hHead, _⟩ := hPage
      · rw [hGet]
        rfl
      · rw [hHead]
        rfl
    have hSome : (namedRoutes.find? (·.accepts request)).isSome := by
      refine List.find?_isSome.mpr ?_
      cases matchesPath_of_mem hPage.2 with
      | inl hRedirect => exact ⟨_, List.mem_cons_self, by rw [Route.accepts, hMethod, hRedirect]; rfl⟩
      | inr hHealth => exact ⟨_, List.mem_cons_of_mem _ List.mem_cons_self, by rw [Route.accepts, hMethod, hHealth]; rfl⟩
    obtain ⟨route, hFound⟩ := Option.isSome_iff_exists.mp hSome
    intro handler hHandler
    rw [hFound, Option.some_or, Option.map_some, Option.some.injEq] at hHandler
    have hAccepts := List.find?_some hFound
    rw [Route.accepts, Bool.and_eq_true] at hAccepts
    obtain ⟨hRoute, _⟩ := matchesPath_of_public hPublic (List.mem_of_find?_eq_some hFound) hAccepts.2
    obtain rfl | rfl := hRoute
    · exact .inl hHandler.symm
    · exact .inr hHandler.symm
  · have hNamed : namedRoutes.find? (·.accepts request) = none := by
      refine List.find?_eq_none.mpr fun route hRoute hAccepts => hPage ?_
      rw [Route.accepts, Bool.and_eq_true] at hAccepts
      obtain ⟨hFirst, hPath⟩ := matchesPath_of_public hPublic hRoute hAccepts.2
      have hGet : route.method = "get" := by
        obtain rfl | rfl := hFirst
        · rfl
        · rfl
      have hMethod := hAccepts.1
      rw [Route.handlesMethod, hGet, Bool.or_eq_true, Bool.and_eq_true, beq_iff_eq, beq_iff_eq] at hMethod
      exact ⟨hMethod.imp id And.left, hPath⟩
    rw [hNamed, Option.none_or]
    cases find?_proxyRoutes request with
    | inl hNone =>
      obtain ⟨hOther, hNotFound⟩ := hNone
      rw [hNotFound]
      exact iff_of_true (by simp) (.inr hOther)
    | inr hProxy =>
      obtain ⟨hKnown, route, hFound, hHandler⟩ := hProxy
      rw [hFound]
      refine iff_of_false (fun hAll => ?_) (fun hEither => hEither.elim hPage (· hKnown))
      cases hHandler with
      | inl hIsProxy =>
        rw [Option.map_some, hIsProxy] at hAll
        exact absurd (hAll _ rfl) (by simp)
      | inr hIsOptions =>
        rw [Option.map_some, hIsOptions] at hAll
        exact absurd (hAll _ rfl) (by simp)

end Dispatch

/-! ## Access without the token -/

section Remote

variable {decodeURIComponent : String → Option String} {config : ServerConfig} {request : Request}

/-- What the control lets pass without the token is a redirect or a health check, except that it takes a public path for one
whatever the method and however many slashes the path has. -/
theorem remote_dispatch_iff (parseUrl : String → Option Url) (hasAsset : String → Bool)
    (hRemote : isLoopbackHost config.host = false) (hToken : LacksToken decodeURIComponent config request) :
    (dashboardAccessControl parseUrl decodeURIComponent config request = .next → ∀ handler,
        registerRoutes hasAsset request = some handler → handler = .redirect ∨ handler = .health) ↔
      (isPublicRoute (canonicalPath request.path) = true →
        IsPublicPage request ∨ toLowerCase request.method ∉ PROXY_METHODS) := by
  constructor
  · intro hDispatch hPublic
    exact (registerRoutes_public hasAsset hPublic).mp (hDispatch ((next_iff_public parseUrl hRemote hToken).mpr hPublic))
  · intro hPage hNext
    have hPublic := (next_iff_public parseUrl hRemote hToken).mp hNext
    exact (registerRoutes_public hasAsset hPublic).mpr (hPage hPublic)

def remoteConfig : ServerConfig := ⟨"0.0.0.0", some "test-dashboard-token-1234567890", none⟩

def bareRequest (method path : String) : Request := ⟨method, path, none, none, none, none, none, none, "8080"⟩

theorem bareRequest_lacksToken (config : ServerConfig) (method path : String) :
    LacksToken (fun text => some text) config (bareRequest method path) := by
  rintro token _ (⟨_, hAuthorization, _⟩ | hHeader | ⟨_, hCookie, _⟩ | hQuery)
  · cases hAuthorization
  · cases hHeader
  · cases hCookie
  · cases hQuery

theorem remoteConfig_checked : isLoopbackHost remoteConfig.host = false ∧
    (toLowerCase "GET" = "get" ∧ "/Health/".toList.map Char.toLower ∈ PUBLIC_PATHS) ∧
    dashboardAccessControl (fun _ => none) (fun text => some text) remoteConfig (bareRequest "POST" "/") = .next ∧
    registerRoutes (fun _ => false) (bareRequest "POST" "/") = some .proxy := by
  decide +kernel

theorem health_needs_no_token : isLoopbackHost remoteConfig.host = false ∧
    (dashboardAccessControl (fun _ => none) (fun text => some text) remoteConfig (bareRequest "GET" "/Health/") = .next →
      ∀ handler, registerRoutes (fun _ => false) (bareRequest "GET" "/Health/") = some handler →
        handler = .redirect ∨ handler = .health) :=
  ⟨remoteConfig_checked.1,
    (remote_dispatch_iff (fun _ => none) (fun _ => false) remoteConfig_checked.1 (bareRequest_lacksToken _ _ _)).mpr
      fun _ => .inl ⟨.inl remoteConfig_checked.2.1.1, remoteConfig_checked.2.1.2⟩⟩

theorem post_reaches_proxy : isLoopbackHost remoteConfig.host = false ∧
    LacksToken (fun text => some text) remoteConfig (bareRequest "POST" "/") ∧
    dashboardAccessControl (fun _ => none) (fun text => some text) remoteConfig (bareRequest "POST" "/") = .next ∧
    registerRoutes (fun _ => false) (bareRequest "POST" "/") = some .proxy :=
  ⟨remoteConfig_checked.1, bareRequest_lacksToken _ _ _, remoteConfig_checked.2.2⟩

end Remote

end GhostApi.Server
