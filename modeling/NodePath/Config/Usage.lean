import NodePath.Text.Bytes

/-!
# Help

The help text of the command.
-/

namespace NodePath

open NodePath.Text

def usageLines : List String :=
  [ "selector - parse and inspect Kodexa selector expressions",
    "",
    "Usage: selector [options] <selector> [selector] ...",
    "       selector -corpus FILE",
    "",
    "Options:",
    "  -format FORMAT          Output format: text, tree, yaml, json (default: text)",
    "  -tokens                 Print the token stream of each selector",
    "  -query JSONPATH         Apply a JSONPath to the AST dump (yaml or json output)",
    "  -corpus FILE            Check a YAML corpus of selectors and print a report",
    "  -variable NAME=VALUE    Variable binding (can be used multiple times)",
    "  -variable-file FILE     Path to key=value file containing variable bindings",
    "  -strict-vars            Reject selectors referencing unbound variables",
    "  -no-color               Disable coloured diagnostics",
    "  -h, -help               Show this help message",
    "",
    "Examples:",
    "  selector '//p[hasTag(\"ORG\")]'                          # Print canonical form",
    "  selector -format yaml '(//p)[1]/span'                  # Dump the AST as YAML",
    "  selector -query '$..[?@.kind==\"function_call\"].name' \\",
    "           '//*[typeRegex(\"te.*\") and contentRegex(\"H.*W\")]'",
    "  selector -strict-vars -variable entityName=ORG '//*[hasTag($entityName)]'",
    "  selector -corpus selectors.yaml                        # Batch check" ]

def usage : Bytes := joinWith [newline] (usageLines.map utf8)

end NodePath
