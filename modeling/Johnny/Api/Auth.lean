import Johnny.Brain.CycleControl

/-!
# The token gates

One token guards the requests, the sockets and the control channel. The three gates read
what is presented in their own ways and compare it alike; so on a text that is not ASCII
all three raise.
-/
namespace Johnny

/-! ### The gates of requests and sockets -/

namespace PyText

/-- `str.isspace`, of one character. -/
def isSpace (c : ℕ) : Bool :=
  (9 ≤ c && c ≤ 13) || (28 ≤ c && c ≤ 32) || c == 0x85 || c == 0xa0 || c == 0x1680 ||
    (0x2000 ≤ c && c ≤ 0x200a) || c == 0x2028 || c == 0x2029 || c == 0x202f || c == 0x205f ||
    c == 0x3000

def strip (t : PyText) : PyText :=
  ((t.dropWhile isSpace).reverse.dropWhile isSpace).reverse

/-- `str.lower`, of an ASCII letter. No other letter has a lower case with `bearer` in it. -/
def lower (c : ℕ) : ℕ := if 65 ≤ c ∧ c ≤ 90 then c + 32 else c

def startsWithLowered (t start : PyText) : Bool := (t.take start.length).map lower == start

end PyText

/-- What the token may be in. -/
structure TokenRequest where
  authorization : Option PyText := none
  xToken : Option PyText := none

def bearerPrefix : PyText := points "bearer "

def presentedToken (request : TokenRequest) : PyText :=
  let authorization := request.authorization.getD []
  if authorization.startsWithLowered bearerPrefix then
    PyText.strip (authorization.drop bearerPrefix.length)
  else request.xToken.getD []

def tokenIsValid (request : TokenRequest) (wsToken : PyText) : Except Failure Bool :=
  tokenGate wsToken (presentedToken request)

structure TokenSocket where
  queryToken : Option PyText := none
  xWsToken : Option PyText := none

/-- `query_params.get("token") or headers.get("x-ws-token") or ""`. -/
def TokenSocket.provided (socket : TokenSocket) : PyText :=
  match socket.queryToken with
  | some (c :: rest) => c :: rest
  | _ => socket.xWsToken.getD []

def wsAuthorised (socket : TokenSocket) (wsToken : PyText) : Except Failure Bool :=
  tokenGate wsToken socket.provided

/-! ### Gates that always decide -/

/-- A blank token opens; otherwise both are ASCII texts. -/
def PyText.ComparesWith (presented expected : PyText) : Prop :=
  expected = [] ∨ presented.isAscii ∧ expected.isAscii

/-- No gate raises: each opens exactly to the token, and the control channel is obeyed exactly
where it is authorised. -/
structure GatesDecide (c : ControlDecoder) (token : PyText) (request : TokenRequest)
    (socket : TokenSocket) (polls : List Polled) : Prop where
  requests : tokenIsValid request token = .ok (opens token (presentedToken request))
  sockets : wsAuthorised socket token = .ok (opens token socket.provided)
  control : ∀ gate, c.listenAll token polls gate =
    .ok (polls.foldl (fun gate polled => c.obey token polled gate) gate)

/-- The gates decide exactly on what can be compared and read. -/
theorem gates_decide_iff (c : ControlDecoder) (token : PyText) (request : TokenRequest)
    (socket : TokenSocket) (polls : List Polled) :
    GatesDecide c token request socket polls ↔
      (presentedToken request).ComparesWith token ∧ socket.provided.ComparesWith token ∧
        ∀ polled ∈ polls, c.Readable token polled := by
  constructor
  · intro ⟨requests, sockets, control⟩
    exact ⟨tokenGate_iff.mp requests, tokenGate_iff.mp sockets,
      (ControlDecoder.listenAll_ok_iff polls {}).mp (control {})⟩
  · intro ⟨request, socket, readable⟩
    exact ⟨tokenGate_iff.mpr request, tokenGate_iff.mpr socket,
      fun gate => (ControlDecoder.listenAll_ok_iff polls gate).mpr readable⟩

/-! ### A token with an accent -/

/-- An accented letter. -/
def accented : PyText := [233]

/-- The control message with this token, and how it decodes. -/
def accentedControl : PyText := points "\x7b\"token\":\"" ++ accented ++ points "\"\x7d"

def accentedDecoder : ControlDecoder where
  loads
    | .text t =>
      if t = accentedControl then .message (.obj [(points "token", .str accented)])
      else .malformed
    | _ => .malformed
  str
    | .str t => .ok t
    | _ => .ok []
  str_text _ := rfl

/-- Presented to any gate, it raises. -/
theorem accented_token_raises :
    tokenIsValid { xToken := some accented } (points "secret") = .error nonAsciiError ∧
      wsAuthorised { queryToken := some accented } (points "secret") = .error nonAsciiError ∧
      accentedDecoder.listenAll (points "secret") [.data (.text accentedControl)] {} =
        .error nonAsciiError := by
  refine ⟨rfl, rfl, rfl⟩

end Johnny
