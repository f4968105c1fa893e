import Tripwire.Digest.Sha256
import Tripwire.Script.Compile
import Tripwire.Value.Text

/-!
# The text of scripts

A script is written in JavaScript: helpers for all routines, each routine as an asynchronous function,
and the driver. What comes from an action stands in the text as JSON, so that it cannot leave its
place.
-/
namespace Tripwire.Script

def signCall : String := "Lit.Actions.signEcdsa"

def driverName : String := "go"

def lines (ls : List String) : List Char := ls.flatMap fun l => l.toList ++ ['\n']

inductive Arm where
  | ordered (symbol : String)
  | equal
  | unequal
  deriving DecidableEq, Repr

def Arm.text : Arm → String
  | .ordered symbol => "sameKind(left, right) && left " ++ symbol ++ " right"
  | .equal => "equal(left, right)"
  | .unequal => "!equal(left, right)"

def armOf (c : Action.Comparison) : Arm :=
  match c with
  | .lt | .gt | .le | .ge => .ordered c.symbol
  | .eq | .strictEq => .equal
  | .ne | .strictNe => .unequal

def armLine (c : Action.Comparison) : String :=
  "    case " ++ String.ofList (Value.literal c.symbol.toList) ++ ": return " ++ (armOf c).text ++ ";"

def prelude : List Char :=
  lines <|
    ["const " ++ resultsName ++ " = \x7b\x7d;",
      "const signerAddress = ethers.utils.computeAddress(publicKey);",
      "const hashTransaction = (tx) => \x7b",
      "  const \x7b from, ...fields \x7d = tx;",
      "  return ethers.utils.arrayify(",
      "    ethers.utils.keccak256(ethers.utils.arrayify(ethers.utils.serializeTransaction(fields))),",
      "  );",
      "\x7d;",
      "const extractPath = (body, path) =>",
      "  path.split(\".\").reduce((node, key) => \x7b",
      "    if (node === null || typeof node !== \"object\" || !(key in node)) \x7b",
      "      throw new Error(`missing key \"$\x7bkey\x7d\" in response path \"$\x7bpath\x7d\"`);",
      "    \x7d",
      "    return node[key];",
      "  \x7d, body);",
      "const sameKind = (left, right) =>",
      "  typeof left === typeof right && [\"number\", \"string\", \"boolean\"].includes(typeof left);",
      "const equal = (left, right) =>",
      "  sameKind(left, right) ? left === right : JSON.stringify(left) === JSON.stringify(right);",
      "const compare = (left, operator, right) => \x7b",
      "  switch (operator) \x7b"] ++
    Action.Comparison.all.map armLine ++
    ["    default: throw new Error(`unknown operator $\x7boperator\x7d`);",
      "  \x7d",
      "\x7d;",
      "const checkSignCondition = (value, conditions) =>",
      "  conditions.reduce(",
      "    (acc, c) => (c.type === \"&&\" ? acc && compare(value, c.operator, c.value) : " ++
        "acc || compare(value, c.operator, c.value)),",
      "    conditions.length > 0 && conditions[0].type === \"&&\",",
      "  );"]

def replaceFrom (pattern replacement : List Char) : Nat → List Char → List Char
  | _, [] => []
  | dropped + 1, _ :: rest => replaceFrom pattern replacement dropped rest
  | 0, c :: rest =>
      if pattern.isPrefixOf (c :: rest) then
        replacement ++ replaceFrom pattern replacement (pattern.length - 1) rest
      else c :: replaceFrom pattern replacement 0 rest

def replaceAll (pattern replacement text : List Char) : List Char :=
  replaceFrom pattern replacement 0 text

def senderMember : List Char :=
  "\"from\":\"".toList ++ Contract.Transaction.senderPlaceholder.toList ++ ['"']

def senderReference : List Char := "\"from\":signerAddress".toList

def transactionText (t : Contract.Transaction) : List Char :=
  replaceAll senderMember senderReference t.write.text

def headersText (quotedName : List Char) : List Char :=
  ", \x7b headers: \x7b Authorization: `Bearer $\x7b".toList ++ apiKeysParam.toList ++
    '[' :: quotedName ++ "]\x7d` \x7d \x7d".toList

def bodyText (name : List Char) (body : Body) : List Char :=
  let quotedName := Text.quoted name
  match body with
  | .custom code => code.toList ++ ['\n']
  | .fetch url authenticated responsePath signConditions toSign =>
      "  try \x7b\n    const response = await fetch(".toList ++ Value.literal url.toList ++
      (if authenticated then headersText quotedName else []) ++
      ");\n    const body = await response.json();\n    const value = extractPath(body, ".toList ++
      Value.literal responsePath.toList ++
      ");\n    const signed = checkSignCondition(value, ".toList ++
      (Value.list (signConditions.map Action.SignCondition.write)).text ++
      ");\n    if (signed) \x7b\n      await ".toList ++ signCall.toList ++
      "(\x7b toSign: new Uint8Array(".toList ++ (Value.list (toSign.map .ofNat)).text ++
      "), publicKey, sigName: ".toList ++ quotedName ++
      " \x7d);\n    \x7d\n    ".toList ++ resultsName.toList ++ '[' :: quotedName ++
      "] = \x7b value, signed \x7d;\n  \x7d catch (err) \x7b\n    console.log(`".toList ++ name ++
      ": $\x7berr.message\x7d`);\n  \x7d\n".toList
  | .contract transaction =>
      "  const tx = ".toList ++ transactionText transaction ++ ";\n  await ".toList ++
      signCall.toList ++ "(\x7b toSign: hashTransaction(tx), publicKey, sigName: ".toList ++
      quotedName ++ " \x7d);\n  ".toList ++ resultsName.toList ++ '[' :: quotedName ++
      "] = tx;\n".toList

def Routine.text (r : Routine) : List Char :=
  "const ".toList ++ r.name.toList ++ " = async () => \x7b\n".toList ++
    bodyText r.name.toList r.body ++ "\x7d;\n".toList

def driverText (names : List String) : List Char :=
  let calls := String.intercalate ", " (names.map (· ++ "()"))
  "const ".toList ++ driverName.toList ++ " = async () => \x7b\n  await Promise.all([".toList ++
    calls.toList ++ "]);\n  ".toList ++ reportCall.toList ++
    "(\x7b response: JSON.stringify(".toList ++ resultsName.toList ++ ") \x7d);\n\x7d;\n".toList ++
    driverName.toList ++ "();\n".toList

def chars (s : Script) : List Char :=
  prelude ++ s.routines.flatMap (fun r => '\n' :: r.text) ++ '\n' :: driverText s.driver

def render (s : Script) : String := String.ofList s.chars

def hashOf (code : String) : String :=
  String.ofList (Text.Hex.write (Digest.Sha256.hash (Bytes.ofText code)))

def contentHash (s : Script) : String := hashOf s.render

end Tripwire.Script
