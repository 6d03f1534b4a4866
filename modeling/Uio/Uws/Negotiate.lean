import Uio.Uws.Deflate

/-!
Negotiation of permessage-deflate. The server answers the first supported offer with the
parameters it will use and prints them into its response; the client parses that response
with the same parameter parser and rules of its own. What a rune is outside ASCII (its
lower case, what it folds to, whether it is a space) is left to the tables of either end.
-/
namespace UwsNegotiate
open UwsDeflate (Encoder Decoder newEncoderWithWindow newDecoderWithWindow defaultWindowBits)
variable {t : Text} {params : Params}

abbrev Text := List Char

def asciiSpace (c : Char) : Bool :=
  c == ' ' || c == '\t' || c == '\n' || c == '\r' || c.toNat == 11 || c.toNat == 12

def asciiFold (c d : Char) : Bool := c.toLower == d.toLower

/-- The rune tables of an end: they may say anything of a rune that is not ASCII. -/
structure Unicode where
  toLower : Char → Char
  isSpace : Char → Bool
  folds : Char → Char → Bool
  toLower_ascii : ∀ c, c.toNat < 128 → toLower c = c.toLower
  isSpace_ascii : ∀ c, c.toNat < 128 → isSpace c = asciiSpace c
  folds_ascii : ∀ c d, c.toNat < 128 → d.toNat < 128 → folds c d = asciiFold c d

def ascii : Unicode :=
  ⟨Char.toLower, asciiSpace, asciiFold, fun _ _ => rfl, fun _ _ => rfl, fun _ _ _ _ => rfl⟩

def trimSpace (u : Unicode) (t : Text) : Text :=
  ((t.dropWhile u.isSpace).reverse.dropWhile u.isSpace).reverse

def lower (u : Unicode) (t : Text) : Text := t.map u.toLower

def equalFold (u : Unicode) : Text → Text → Bool
  | [], [] => true
  | c :: s, d :: t => u.folds c d && equalFold u s t
  | _, _ => false

def decimal (digits : Text) : Option Nat :=
  if digits = [] then none
  else digits.foldlM (fun n d => if d.isDigit then some (10 * n + (d.toNat - 48)) else none) 0

/-- Nothing stands for a syntax error and for a value that is no `int`. -/
def atoi : Text → Option Int
  | '-' :: digits => (decimal digits).bind fun n => if n ≤ 2 ^ 63 then some (-n) else none
  | '+' :: digits => (decimal digits).bind fun n => if n < 2 ^ 63 then some (n : Int) else none
  | digits => (decimal digits).bind fun n => if n < 2 ^ 63 then some (n : Int) else none

def itoa (n : Int) : Text :=
  if n < 0 then '-' :: Nat.toDigits 10 n.natAbs else Nat.toDigits 10 n.natAbs

structure Params where
  enabled : Bool := false
  serverNoContextTakeover : Bool := false
  clientNoContextTakeover : Bool := false
  serverMaxWindowBitsSet : Bool := false
  serverMaxWindowBits : Int := 0
  clientMaxWindowBits : Int := 0
  clientMaxWindowBitsSet : Bool := false
  level : Int := 0
deriving DecidableEq

inductive Error where
  | duplicateParameter (name : Text)
  | invalid (name : Text)
  | missingValue (name : Text)
  | unknownParameter (name : Text)
  | unexpectedResponse
  | unexpectedExtension (name : Text)
  | duplicateExtension
  | valuelessClientBits
deriving DecidableEq

def perMessageDeflate : Text :=
  ['p', 'e', 'r', 'm', 'e', 's', 's', 'a', 'g', 'e', '-', 'd', 'e', 'f', 'l', 'a', 't', 'e']
def serverNoContext : Text :=
  ['s', 'e', 'r', 'v', 'e', 'r', '_', 'n', 'o', '_', 'c', 'o', 'n', 't', 'e', 'x', 't', '_', 't',
   'a', 'k', 'e', 'o', 'v', 'e', 'r']
def clientNoContext : Text :=
  ['c', 'l', 'i', 'e', 'n', 't', '_', 'n', 'o', '_', 'c', 'o', 'n', 't', 'e', 'x', 't', '_', 't',
   'a', 'k', 'e', 'o', 'v', 'e', 'r']
def serverBits : Text :=
  ['s', 'e', 'r', 'v', 'e', 'r', '_', 'm', 'a', 'x', '_', 'w', 'i', 'n', 'd', 'o', 'w', '_', 'b',
   'i', 't', 's']
def clientBits : Text :=
  ['c', 'l', 'i', 'e', 'n', 't', '_', 'm', 'a', 'x', '_', 'w', 'i', 'n', 'd', 'o', 'w', '_', 'b',
   'i', 't', 's']

/-- `strings.SplitN(item, "=", 2)`, as the text before and after the first equals sign. -/
def splitValue (item : Text) : Text × Option Text :=
  match item.dropWhile (· != '=') with
  | [] => (item, none)
  | _ :: value => (item.takeWhile (· != '='), some value)

def windowBits (u : Unicode) (name value : Text) : Except Error Int :=
  match atoi (trimSpace u value) with
  | none => .error (.invalid name)
  | some bits => if bits < 8 ∨ bits > 15 then .error (.invalid name) else .ok bits

def setParam (u : Unicode) (params : Params) (name : Text) (value : Option Text) :
    Except Error Params :=
  if name = serverNoContext then
    if value.isSome then .error (.invalid name)
    else .ok { params with serverNoContextTakeover := true }
  else if name = clientNoContext then
    if value.isSome then .error (.invalid name)
    else .ok { params with clientNoContextTakeover := true }
  else if name = serverBits then
    match value with
    | none => .error (.missingValue name)
    | some value => (windowBits u name value).map fun bits =>
        { params with serverMaxWindowBitsSet := true, serverMaxWindowBits := bits }
  else if name = clientBits then
    match value with
    | none => .ok { params with clientMaxWindowBitsSet := true }
    | some value => (windowBits u name value).map fun bits =>
        { params with clientMaxWindowBitsSet := true, clientMaxWindowBits := bits }
  else .error (.unknownParameter name)

/-- The loop of `parseParams`; `seen` holds the names that were there before. -/
def parseItems (u : Unicode) (params : Params) (seen : List Text) :
    List Text → Except Error Params
  | [] => .ok params
  | raw :: rest =>
    let item := trimSpace u raw
    if item = [] then parseItems u params seen rest
    else
      let (key, value) := splitValue item
      let name := lower u (trimSpace u key)
      if name ∈ seen then .error (.duplicateParameter name)
      else
        match setParam u params name value with
        | .error e => .error e
        | .ok params => parseItems u params (name :: seen) rest

def parseParams (u : Unicode) (parts : List Text) : Except Error Params :=
  parseItems u { level := -1 } [] parts

def settle (noContextTakeover : Bool) (params : Params) : Params :=
  { params with
    enabled := true
    serverNoContextTakeover := noContextTakeover || params.serverNoContextTakeover
    clientNoContextTakeover := noContextTakeover || params.clientNoContextTakeover
    clientMaxWindowBits :=
      if params.clientMaxWindowBitsSet ∧ params.clientMaxWindowBits = 0 then defaultWindowBits
      else params.clientMaxWindowBits }

def respond (params : Params) : Text :=
  perMessageDeflate ++
    (if params.serverNoContextTakeover then ';' :: ' ' :: serverNoContext else []) ++
    (if params.clientNoContextTakeover then ';' :: ' ' :: clientNoContext else []) ++
    (if params.serverMaxWindowBitsSet then
      ';' :: ' ' :: (serverBits ++ '=' :: itoa params.serverMaxWindowBits) else []) ++
    (if params.clientMaxWindowBitsSet then
      ';' :: ' ' :: (clientBits ++ '=' :: itoa params.clientMaxWindowBits) else [])

def isDeflate (u : Unicode) (parts : List Text) : Bool :=
  equalFold u (trimSpace u (parts.headD [])) perMessageDeflate

def selectOffer (u : Unicode) (noContextTakeover : Bool) : List Text → Except Error (Params × Text)
  | [] => .ok ({}, [])
  | raw :: rest =>
    let parts := raw.splitOn ';'
    if isDeflate u parts then
      (parseParams u parts.tail).map fun params =>
        (settle noContextTakeover params, respond (settle noContextTakeover params))
    else selectOffer u noContextTakeover rest

def negotiateServerWithPolicy (u : Unicode) (values : List Text)
    (enabled noContextTakeover : Bool) : Except Error (Params × Text) :=
  if enabled then selectOffer u noContextTakeover (values.flatMap (·.splitOn ','))
  else .ok ({}, [])

/-- The loops of `NegotiateClient`; `negotiated` is there once `found` is set. -/
def acceptResponse (u : Unicode) : Option Params → List Text → Except Error Params
  | negotiated, [] => .ok (negotiated.getD {})
  | negotiated, raw :: rest =>
    let parts := raw.splitOn ';'
    if isDeflate u parts = false then
      .error (.unexpectedExtension (trimSpace u (parts.headD [])))
    else if negotiated.isSome then .error .duplicateExtension
    else
      match parseParams u parts.tail with
      | .error e => .error e
      | .ok params =>
        if params.clientMaxWindowBitsSet ∧ params.clientMaxWindowBits = 0 then
          .error .valuelessClientBits
        else acceptResponse u (some { params with enabled := true }) rest

def negotiateClient (u : Unicode) (values : List Text) (requested : Bool) :
    Except Error Params :=
  if requested = false then
    if values.length ≠ 0 then .error .unexpectedResponse else .ok {}
  else if values.length = 0 then .ok {}
  else acceptResponse u none (values.flatMap (·.splitOn ','))

/-- The header values the client finds: no extension is sent as no header at all. -/
def responseValues (extensions : Text) : List Text :=
  if extensions = [] then [] else [extensions]

structure Compression where
  encoder : Encoder
  decoder : Decoder

def serverCompression (params : Params) : Option Compression :=
  if params.enabled then
    some
      ⟨newEncoderWithWindow params.serverNoContextTakeover params.serverMaxWindowBits,
        newDecoderWithWindow params.clientNoContextTakeover params.clientMaxWindowBits⟩
  else none

def clientCompression (params : Params) : Option Compression :=
  if params.enabled then
    some
      ⟨newEncoderWithWindow params.clientNoContextTakeover params.clientMaxWindowBits,
        newDecoderWithWindow params.serverNoContextTakeover params.serverMaxWindowBits⟩
  else none

/-- One direction of the connection: the two ends keep the same window in the same way. -/
structure Agrees (encoder : Encoder) (decoder : Decoder) : Prop where
  window : encoder.windowBytes = decoder.windowBytes
  context : encoder.noContext = decoder.noContext
  dictionary : encoder.dictionary = decoder.dictionary

section Ascii

def Ascii (t : Text) : Prop := ∀ c ∈ t, c.toNat < 128

def isPlain (c : Char) : Bool := c.toNat < 128 && c != ';' && c != ','

theorem ascii_plain (plain : t.all isPlain = true) : Ascii t := by
  intro c inside
  have each := List.all_eq_true.1 plain c inside
  simp only [isPlain, Bool.and_eq_true, decide_eq_true_eq] at each
  exact each.1.1

theorem separators_plain (plain : t.all isPlain = true) : ';' ∉ t ∧ ',' ∉ t := by
  constructor <;> intro inside <;> have each := List.all_eq_true.1 plain _ inside <;>
    cases each

theorem dropWhile_agree {p q : Char → Bool} (agree : ∀ c ∈ t, p c = q c) :
    t.dropWhile p = t.dropWhile q := by
  induction t with
  | nil => rfl
  | cons c t ih =>
    rw [List.dropWhile_cons, List.dropWhile_cons, agree c List.mem_cons_self,
      ih fun d inside => agree d (List.mem_cons_of_mem _ inside)]

theorem Ascii.isSpace (plain : Ascii t) (u : Unicode) : ∀ c ∈ t, u.isSpace c = asciiSpace c :=
  fun c inside => u.isSpace_ascii c (plain c inside)

theorem Ascii.dropWhile (plain : Ascii t) (p : Char → Bool) : Ascii (t.dropWhile p) :=
  fun c inside => plain c ((List.dropWhile_suffix p).subset inside)

theorem Ascii.takeWhile (plain : Ascii t) (p : Char → Bool) : Ascii (t.takeWhile p) :=
  fun c inside => plain c ((List.takeWhile_prefix p).subset inside)

theorem Ascii.reverse (plain : Ascii t) : Ascii t.reverse :=
  fun c inside => plain c (List.mem_reverse.1 inside)

theorem trimSpace_ascii (plain : Ascii t) (u : Unicode) : trimSpace u t = trimSpace ascii t := by
  have front : t.dropWhile u.isSpace = t.dropWhile asciiSpace :=
    dropWhile_agree (plain.isSpace u)
  have back : Ascii (t.dropWhile asciiSpace).reverse := (plain.dropWhile _).reverse
  simp only [trimSpace, front, dropWhile_agree (back.isSpace u), ascii]

theorem ascii_trimSpace (plain : Ascii t) : Ascii (trimSpace ascii t) :=
  (((plain.dropWhile _).reverse).dropWhile _).reverse

theorem lower_ascii (plain : Ascii t) (u : Unicode) : lower u t = lower ascii t :=
  List.map_congr_left fun c inside => u.toLower_ascii c (plain c inside)

theorem equalFold_ascii (u : Unicode) {s t : Text} (left : Ascii s) (right : Ascii t) :
    equalFold u s t = equalFold ascii s t := by
  induction s generalizing t with
  | nil => cases t <;> rfl
  | cons c s ih =>
    cases t with
    | nil => rfl
    | cons d t =>
      have tails := ih (fun e inside => left e (List.mem_cons_of_mem _ inside))
        fun e inside => right e (List.mem_cons_of_mem _ inside)
      simp only [equalFold, tails, ascii,
        u.folds_ascii c d (left c List.mem_cons_self) (right d List.mem_cons_self)]

theorem ascii_splitValue {item : Text} (plain : Ascii item) : Ascii (splitValue item).1 := by
  unfold splitValue
  split
  · exact plain
  · exact plain.takeWhile _

end Ascii

section Items
variable {u : Unicode} {raw name : Text} {value : Option Text}

def Reads (u : Unicode) (raw name : Text) (value : Option Text) : Prop :=
  trimSpace u raw ≠ [] ∧
    lower u (trimSpace u (splitValue (trimSpace u raw)).1) = name ∧
    (splitValue (trimSpace u raw)).2 = value

instance : Decidable (Reads u raw name value) := inferInstanceAs (Decidable (_ ∧ _ ∧ _))

theorem reads_ascii (plain : Ascii raw) (reads : Reads ascii raw name value) (u : Unicode) :
    Reads u raw name value := by
  have trimmed := ascii_trimSpace plain
  have key := ascii_splitValue trimmed
  rw [Reads, trimSpace_ascii plain u, trimSpace_ascii key u, lower_ascii (ascii_trimSpace key) u]
  exact reads

theorem parseItems_reads {params next : Params} {seen rest : List Text}
    (reads : Reads u raw name value) (fresh : name ∉ seen)
    (set : setParam u params name value = .ok next) :
    parseItems u params seen (raw :: rest) = parseItems u next (name :: seen) rest := by
  obtain ⟨there, rfl, rfl⟩ := reads
  simp only [parseItems, there, if_false, fresh, set]

end Items

def Window (bits : Int) : Prop := 8 ≤ bits ∧ bits ≤ 15

theorem Window.cases {bits : Int} (window : Window bits) :
    bits = 8 ∨ bits = 9 ∨ bits = 10 ∨ bits = 11 ∨ bits = 12 ∨ bits = 13 ∨ bits = 14 ∨
      bits = 15 := by
  obtain ⟨low, high⟩ := window
  omega

section Printed
variable {bits : Int}

theorem plain_itoa (window : Window bits) : (itoa bits).all isPlain = true := by
  rcases window.cases with rfl | rfl | rfl | rfl | rfl | rfl | rfl | rfl <;> rfl

theorem windowBits_itoa (window : Window bits) (u : Unicode) (name : Text) :
    windowBits u name (itoa bits) = .ok bits := by
  have number : atoi (trimSpace ascii (itoa bits)) = some bits := by
    rcases window.cases with rfl | rfl | rfl | rfl | rfl | rfl | rfl | rfl <;> rfl
  obtain ⟨low, high⟩ := window
  simp only [windowBits, trimSpace_ascii (ascii_plain (plain_itoa ⟨low, high⟩)) u, number]
  rw [if_neg (by omega)]

theorem reads_bits (window : Window bits) (u : Unicode) {name : Text}
    (named : name = serverBits ∨ name = clientBits) :
    Reads u (' ' :: (name ++ '=' :: itoa bits)) name (some (itoa bits)) := by
  rcases named with rfl | rfl <;>
    rcases window.cases with rfl | rfl | rfl | rfl | rfl | rfl | rfl | rfl <;>
    exact reads_ascii (ascii_plain (by decide)) (by decide) u

theorem reads_flag (u : Unicode) {name : Text}
    (named : name = serverNoContext ∨ name = clientNoContext) :
    Reads u (' ' :: name) name none := by
  rcases named with rfl | rfl <;> exact reads_ascii (ascii_plain (by decide)) (by decide) u

end Printed

/-- What a parsed list of parameters looks like; a client's size may have been left out. -/
structure Parsed (params : Params) : Prop where
  off : params.enabled = false
  level : params.level = -1
  server : params.serverMaxWindowBitsSet → Window params.serverMaxWindowBits
  noServer : params.serverMaxWindowBitsSet = false → params.serverMaxWindowBits = 0
  client : params.clientMaxWindowBitsSet →
    params.clientMaxWindowBits = 0 ∨ Window params.clientMaxWindowBits
  noClient : params.clientMaxWindowBitsSet = false → params.clientMaxWindowBits = 0

section Server
variable {u : Unicode}

theorem windowBits_window {name value : Text} {bits : Int}
    (read : windowBits u name value = .ok bits) : Window bits := by
  unfold windowBits at read
  split at read
  · cases read
  · split at read
    · cases read
    · cases read
      exact ⟨by omega, by omega⟩

theorem parsed_setParam {params next : Params} {name : Text} {value : Option Text}
    (parsed : Parsed params) (set : setParam u params name value = .ok next) : Parsed next := by
  obtain ⟨off, level, server, noServer, client, noClient⟩ := parsed
  unfold setParam at set
  split at set
  · split at set
    · cases set
    · cases set
      exact ⟨off, level, server, noServer, client, noClient⟩
  split at set
  · split at set
    · cases set
    · cases set
      exact ⟨off, level, server, noServer, client, noClient⟩
  split at set
  · cases value with
    | none => cases set
    | some value =>
      cases read : windowBits u name value with
      | error e => simp [read, Except.map] at set
      | ok bits =>
        simp only [read, Except.map, Except.ok.injEq] at set
        subst set
        exact ⟨off, level, fun _ => windowBits_window read, nofun, client, noClient⟩
  split at set
  · cases value with
    | none =>
      cases set
      refine ⟨off, level, server, noServer, fun _ => ?_, nofun⟩
      cases given : params.clientMaxWindowBitsSet with
      | true => exact client given
      | false => exact .inl (noClient given)
    | some value =>
      cases read : windowBits u name value with
      | error e => simp [read, Except.map] at set
      | ok bits =>
        simp only [read, Except.map, Except.ok.injEq] at set
        subst set
        exact ⟨off, level, server, noServer, fun _ => .inr (windowBits_window read), nofun⟩
  · cases set

theorem parsed_parseItems {params next : Params} {seen parts : List Text}
    (parsed : Parsed params) (read : parseItems u params seen parts = .ok next) : Parsed next := by
  induction parts generalizing params seen with
  | nil =>
    cases read
    exact parsed
  | cons raw rest ih =>
    simp only [parseItems] at read
    split at read
    · exact ih parsed read
    split at read
    · cases read
    split at read
    · cases read
    · rename_i set
      exact ih (parsed_setParam parsed set) read

theorem parsed_parseParams {parts : List Text}
    (read : parseParams u parts = .ok params) : Parsed params :=
  parsed_parseItems
    ⟨rfl, rfl, fun given => absurd given (by decide), fun _ => rfl,
      fun given => absurd given (by decide), fun _ => rfl⟩ read

/-- What the server answers with: every size it names is one the client takes. -/
structure Settled (params : Params) : Prop where
  on : params.enabled = true
  level : params.level = -1
  server : params.serverMaxWindowBitsSet → Window params.serverMaxWindowBits
  noServer : params.serverMaxWindowBitsSet = false → params.serverMaxWindowBits = 0
  client : params.clientMaxWindowBitsSet → Window params.clientMaxWindowBits
  noClient : params.clientMaxWindowBitsSet = false → params.clientMaxWindowBits = 0

theorem settled_settle (parsed : Parsed params) (noContextTakeover : Bool) :
    Settled (settle noContextTakeover params) := by
  refine ⟨rfl, parsed.level, parsed.server, parsed.noServer, ?_, ?_⟩
  · intro given
    simp only [settle] at given ⊢
    split
    · exact ⟨by decide, by decide⟩
    · rename_i named
      exact (parsed.client given).resolve_left fun zero => named ⟨given, zero⟩
  · intro absent
    simp only [settle] at absent ⊢
    rw [if_neg (by simp [absent])]
    exact parsed.noClient absent

theorem settled_selectOffer {noContextTakeover : Bool} {offers : List Text} {response : Text}
    (accepted : selectOffer u noContextTakeover offers = .ok (params, response))
    (on : params.enabled = true) : Settled params ∧ response = respond params := by
  induction offers with
  | nil =>
    cases accepted
    cases on
  | cons raw rest ih =>
    simp only [selectOffer] at accepted
    split at accepted
    · cases read : parseParams u (raw.splitOn ';').tail with
      | error e => simp [read, Except.map] at accepted
      | ok parsed =>
        simp only [read, Except.map, Except.ok.injEq, Prod.mk.injEq] at accepted
        obtain ⟨rfl, rfl⟩ := accepted
        exact ⟨settled_settle (parsed_parseParams read) _, rfl⟩
    · exact ih accepted

end Server

section Client

def items (params : Params) : List Text :=
  (if params.serverNoContextTakeover then [' ' :: serverNoContext] else []) ++
    (if params.clientNoContextTakeover then [' ' :: clientNoContext] else []) ++
    (if params.serverMaxWindowBitsSet then
      [' ' :: (serverBits ++ '=' :: itoa params.serverMaxWindowBits)] else []) ++
    (if params.clientMaxWindowBitsSet then
      [' ' :: (clientBits ++ '=' :: itoa params.clientMaxWindowBits)] else [])

theorem respond_items (params : Params) :
    respond params = [';'].intercalate (perMessageDeflate :: items params) := by
  unfold respond items
  generalize perMessageDeflate = name
  cases params.serverNoContextTakeover <;> cases params.clientNoContextTakeover <;>
    cases params.serverMaxWindowBitsSet <;> cases params.clientMaxWindowBitsSet <;>
    simp [List.intercalate]

theorem plain_names : perMessageDeflate.all isPlain = true ∧ serverNoContext.all isPlain = true ∧
      clientNoContext.all isPlain = true ∧ serverBits.all isPlain = true ∧
      clientBits.all isPlain = true := by decide

theorem plain_sized {name : Text} {bits : Int} (named : name.all isPlain = true)
    (window : Window bits) : (name ++ '=' :: itoa bits).all isPlain = true := by
  rw [List.all_append, List.all_cons, named, plain_itoa window]
  rfl

theorem semicolon_items (settled : Settled params) :
    ∀ item ∈ perMessageDeflate :: items params, ';' ∉ item := by
  obtain ⟨name, server, client, serverSize, clientSize⟩ := plain_names
  intro item inside
  simp only [items, List.mem_cons, List.mem_append, List.mem_ite_nil_right, List.not_mem_nil,
    or_false] at inside
  rcases inside with rfl | ((⟨-, rfl⟩ | ⟨-, rfl⟩) | ⟨given, rfl⟩) | ⟨given, rfl⟩
  · exact (separators_plain name).1
  · exact List.not_mem_cons_of_ne_of_not_mem (by decide) (separators_plain server).1
  · exact List.not_mem_cons_of_ne_of_not_mem (by decide) (separators_plain client).1
  · exact List.not_mem_cons_of_ne_of_not_mem (by decide)
      (separators_plain (plain_sized serverSize (settled.server given))).1
  · exact List.not_mem_cons_of_ne_of_not_mem (by decide)
      (separators_plain (plain_sized clientSize (settled.client given))).1

theorem comma_optional {given : Bool} {item : Text}
    (plain : given = true → item.all isPlain = true) :
    ',' ∉ (if given then ';' :: ' ' :: item else []) := by
  cases given with
  | true => simp [(separators_plain (plain rfl)).2]
  | false => exact List.not_mem_nil

theorem comma_respond (settled : Settled params) : ',' ∉ respond params := by
  obtain ⟨name, server, client, serverSize, clientSize⟩ := plain_names
  simp only [respond, List.mem_append, not_or]
  refine ⟨⟨⟨⟨(separators_plain name).2, ?_⟩, ?_⟩, ?_⟩, ?_⟩
  · exact comma_optional fun _ => server
  · exact comma_optional fun _ => client
  · exact comma_optional fun given => plain_sized serverSize (settled.server given)
  · exact comma_optional fun given => plain_sized clientSize (settled.client given)

theorem setParam_serverNoContext (u : Unicode) (params : Params) :
    setParam u params serverNoContext none =
      .ok { params with serverNoContextTakeover := true } := by
  rw [setParam, if_pos rfl]
  rfl

theorem setParam_clientNoContext (u : Unicode) (params : Params) :
    setParam u params clientNoContext none =
      .ok { params with clientNoContextTakeover := true } := by
  rw [setParam, if_neg (by decide), if_pos rfl]
  rfl

theorem setParam_serverBits {bits : Int} (window : Window bits) (u : Unicode) (params : Params) :
    setParam u params serverBits (some (itoa bits)) =
      .ok { params with serverMaxWindowBitsSet := true, serverMaxWindowBits := bits } := by
  rw [setParam, if_neg (by decide), if_neg (by decide), if_pos rfl]
  simp only [windowBits_itoa window, Except.map]

theorem setParam_clientBits {bits : Int} (window : Window bits) (u : Unicode) (params : Params) :
    setParam u params clientBits (some (itoa bits)) =
      .ok { params with clientMaxWindowBitsSet := true, clientMaxWindowBits := bits } := by
  rw [setParam, if_neg (by decide), if_neg (by decide), if_neg (by decide), if_pos rfl]
  simp only [windowBits_itoa window, Except.map]

theorem parseItems_optional {u : Unicode} {raw name : Text} {value : Option Text}
    {seen known rest : List Text} (given : Bool) (before after : Params)
    (sub : seen ⊆ known) (fresh : name ∉ known) (reads : given = true →
      Reads u raw name value ∧ setParam u before name value = .ok after)
    (skip : given = false → after = before) : ∃ names, names ⊆ name :: known ∧
      parseItems u before seen ((if given then [raw] else []) ++ rest) =
        parseItems u after names rest := by
  cases given with
  | true =>
    obtain ⟨read, set⟩ := reads rfl
    exact ⟨name :: seen, List.cons_subset_cons _ sub,
      parseItems_reads read (fun inside => fresh (sub inside)) set⟩
  | false =>
    rw [skip rfl]
    exact ⟨seen, List.subset_cons_of_subset _ sub, rfl⟩

theorem parseParams_items (settled : Settled params) (u : Unicode) :
    parseParams u (items params) = .ok { params with enabled := false } := by
  obtain ⟨enabled, serverFlag, clientFlag, serverSet, serverSize, clientSize, clientSet, level⟩ :=
    params
  obtain ⟨-, rfl, server, noServer, client, noClient⟩ := settled
  simp only at server noServer client noClient
  rw [parseParams, ← List.append_nil (items _)]
  simp only [items, List.append_assoc]
  obtain ⟨one, inOne, first⟩ := parseItems_optional serverFlag { level := -1 }
    { serverNoContextTakeover := serverFlag, level := -1 } (List.nil_subset []) (by decide)
    (fun given => ⟨reads_flag u (.inl rfl), by rw [setParam_serverNoContext, given]⟩)
    (fun absent => by rw [absent])
  rw [first]
  obtain ⟨two, inTwo, second⟩ := parseItems_optional clientFlag
    { serverNoContextTakeover := serverFlag, level := -1 }
    { serverNoContextTakeover := serverFlag, clientNoContextTakeover := clientFlag, level := -1 }
    inOne (by decide)
    (fun given => ⟨reads_flag u (.inr rfl), by rw [setParam_clientNoContext, given]⟩)
    (fun absent => by rw [absent])
  rw [second]
  obtain ⟨three, inThree, third⟩ := parseItems_optional serverSet
    { serverNoContextTakeover := serverFlag, clientNoContextTakeover := clientFlag, level := -1 }
    { serverNoContextTakeover := serverFlag, clientNoContextTakeover := clientFlag,
      serverMaxWindowBitsSet := serverSet, serverMaxWindowBits := serverSize, level := -1 }
    inTwo (by decide)
    (fun given => ⟨reads_bits (server given) u (.inl rfl),
      by rw [setParam_serverBits (server given), given]⟩)
    (fun absent => by rw [absent, noServer absent])
  rw [third]
  obtain ⟨four, -, fourth⟩ := parseItems_optional clientSet
    { serverNoContextTakeover := serverFlag, clientNoContextTakeover := clientFlag,
      serverMaxWindowBitsSet := serverSet, serverMaxWindowBits := serverSize, level := -1 }
    { serverNoContextTakeover := serverFlag, clientNoContextTakeover := clientFlag,
      serverMaxWindowBitsSet := serverSet, serverMaxWindowBits := serverSize,
      clientMaxWindowBits := clientSize, clientMaxWindowBitsSet := clientSet, level := -1 }
    inThree (by decide)
    (fun given => ⟨reads_bits (client given) u (.inr rfl),
      by rw [setParam_clientBits (client given), given]⟩)
    (fun absent => by rw [absent, noClient absent])
  rw [fourth, parseItems]

theorem isDeflate_response (u : Unicode) (rest : List Text) :
    isDeflate u (perMessageDeflate :: rest) = true := by
  have plain : Ascii perMessageDeflate := ascii_plain plain_names.1
  have same : equalFold ascii (trimSpace ascii perMessageDeflate) perMessageDeflate = true := by
    decide
  simp only [isDeflate, List.headD_cons, trimSpace_ascii plain u]
  rw [equalFold_ascii u (ascii_trimSpace plain) plain, same]

theorem splitOn_respond (settled : Settled params) :
    (respond params).splitOn ';' = perMessageDeflate :: items params := by
  rw [respond_items]
  exact List.splitOn_intercalate ';' (semicolon_items settled) (List.cons_ne_nil _ _)

theorem respond_ne_nil (params : Params) : respond params ≠ [] := by
  have named : perMessageDeflate ≠ [] := by decide
  simp [respond, named]

theorem negotiateClient_respond (settled : Settled params) (u : Unicode) :
    negotiateClient u (responseValues (respond params)) true = .ok params := by
  have named : ¬(params.clientMaxWindowBitsSet = true ∧ params.clientMaxWindowBits = 0) := by
    rintro ⟨given, zero⟩
    have low := (settled.client given).1
    omega
  have same : { params with enabled := true } = params := by rw [← settled.on]
  have whole : [respond params].flatMap (·.splitOn ',') = [respond params] := by
    simp [List.splitOn_eq_singleton (comma_respond settled)]
  rw [responseValues, if_neg (respond_ne_nil params), negotiateClient, if_neg (by decide),
    if_neg (by simp), whole]
  simp only [acceptResponse, splitOn_respond settled, isDeflate_response, List.tail_cons,
    parseParams_items settled u, Option.isSome_none, if_neg named, Option.getD_some, same,
    Bool.true_eq_false, Bool.false_eq_true, if_false]

end Client

/-- Whatever offers the server accepts and whatever its policy, the client makes the
server's parameters out of its response, and the two directions agree. -/
theorem negotiation_agrees (server client : Unicode) (values : List Text)
    (enabled noContextTakeover : Bool) (params : Params) (response : Text) (accepted :
      negotiateServerWithPolicy server values enabled noContextTakeover = .ok (params, response))
    (on : params.enabled = true) :
    negotiateClient client (responseValues response) true = .ok params ∧
      ∃ s c, serverCompression params = some s ∧ clientCompression params = some c ∧
        Agrees s.encoder c.decoder ∧ Agrees c.encoder s.decoder := by
  have settled : Settled params ∧ response = respond params := by
    unfold negotiateServerWithPolicy at accepted
    split at accepted
    · exact settled_selectOffer accepted on
    · cases accepted
      cases on
  obtain ⟨settled, rfl⟩ := settled
  refine ⟨negotiateClient_respond settled client, _, _, if_pos on, if_pos on, ?_, ?_⟩
  · exact ⟨rfl, rfl, rfl⟩
  · exact ⟨rfl, rfl, rfl⟩

def offer : Text :=
  perMessageDeflate.map Char.toUpper ++ ' ' :: ';' :: clientBits ++
    ';' :: ' ' :: serverBits ++ ['=', ' ', '+', '1', '0']

def offered : Params :=
  { enabled := true, serverMaxWindowBitsSet := true, serverMaxWindowBits := 10,
    clientMaxWindowBits := 15, clientMaxWindowBitsSet := true, level := -1 }

theorem negotiation_agrees_bits :
    negotiateServerWithPolicy ascii [offer] true false = .ok (offered, respond offered) ∧
      negotiateClient ascii (responseValues (respond offered)) true = .ok offered :=
  have accepted :
      negotiateServerWithPolicy ascii [offer] true false = .ok (offered, respond offered) := by
    decide +kernel
  ⟨accepted, (negotiation_agrees ascii ascii [offer] true false offered _ accepted rfl).1⟩

end UwsNegotiate
