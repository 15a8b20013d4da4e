/-!
# Usage texts

What the command says about itself.
-/

namespace ContractDoc
namespace Cli

/-- The usage of the command. -/
def usage : String :=
  "usage: soldoc [-h] [--format \x7bjson,yaml,summary\x7d] [-o OUTPUT] [--no-merge]
              [--contract CONTRACT] [-I INCLUDE_PATH] [--quiet] [--verbose]
              paths [paths ...]
"

/-- The arguments of the command. -/
def argumentHelp : String := "
Extract documentation structure from Solidity contracts

positional arguments:
  paths                 Solidity files or directories

options:
  -h, --help            show this help message and exit
  --format \x7bjson,yaml,summary\x7d
                        Output format (default: summary)
  -o OUTPUT, --output OUTPUT
                        Output file (default: stdout)
  --no-merge            Do not merge members inherited from parent contracts
  --contract CONTRACT   Contract to document when a file declares several
  -I INCLUDE_PATH, --include-path INCLUDE_PATH
                        Extra directory to resolve imports from (repeatable)
  --quiet               Suppress progress messages
  --verbose             Enable debug logging
"

/-- Examples of use. -/
def examples : String := "
Examples:
  Document a single contract:
    python -m soldoc contracts/Token.sol

  Document a whole directory as JSON:
    python -m soldoc contracts/ --format json -o docs.json

  Only the contract's own members:
    python -m soldoc contracts/Token.sol --no-merge

  Resolve library imports from an extra directory:
    python -m soldoc contracts/Token.sol -I lib/
        \n"

/-- The help text. -/
def help : String :=
  usage ++ argumentHelp ++ examples

/-- The message of a refused command line. -/
def refusalText (message : String) : String :=
  usage ++ "soldoc: error: " ++ message ++ "\n"

end Cli
end ContractDoc
