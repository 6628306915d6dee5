import NodePath.Token.Kind

/-!
# Reserved words

Keywords are reserved everywhere. Node type names and axis names are ordinary names unless a
parenthesis or a double colon follows them.
-/

namespace NodePath

open NodePath.Text

def keywords : List (Bytes × Kind) :=
  [(utf8 "or", .orWord), (utf8 "and", .andWord), (utf8 "intersect", .intersectWord),
   (utf8 "stream", .streamWord), (utf8 "true", .trueWord), (utf8 "false", .falseWord)]

def keyword? (word : Bytes) : Option Kind := keywords.lookup word

def nodeTypes : List Bytes :=
  [utf8 "comment", utf8 "text", utf8 "processing-instruction", utf8 "node"]

def isNodeType (word : Bytes) : Bool := nodeTypes.contains word

def axisNames : List Bytes :=
  [utf8 "ancestor", utf8 "ancestor-or-self", utf8 "attribute", utf8 "child", utf8 "descendant",
   utf8 "descendant-or-self", utf8 "following", utf8 "following-sibling", utf8 "namespace",
   utf8 "parent", utf8 "preceding", utf8 "preceding-sibling", utf8 "self"]

def isAxisName (word : Bytes) : Bool := axisNames.contains word

end NodePath
