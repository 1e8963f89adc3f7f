import SelectorRank.CommandLine.Flag

/-! What the program says about its own use. -/
namespace SelectorRank.CommandLine

def programName : String := "csscascade"

def usageText : String :=
  "usage: csscascade [-h] [-f FILE] [--origin \x7bauthor,user,userAgent\x7d]\n" ++
  "                  [--important | --no-important] [--sort | --no-sort]\n" ++
  "                  [--format \x7btext,json\x7d] [--config FILE] [--debug]\n" ++
  "                  [SELECTOR ...]\n"

def helpText : String :=
  usageText ++
  "\n" ++
  "Report specificity and cascade order of CSS selectors\n" ++
  "\n" ++
  "positional arguments:\n" ++
  "  SELECTOR              Selector list to analyse\n" ++
  "\n" ++
  "options:\n" ++
  "  -h, --help            show this help message and exit\n" ++
  "  -f FILE, --file FILE  Read selector lists from FILE, one per line\n" ++
  "                        (repeatable)\n" ++
  "  --origin \x7bauthor,user,userAgent\x7d\n" ++
  "                        Stylesheet origin of the selectors (default: author)\n" ++
  "  --important, --no-important\n" ++
  "                        Treat declarations as !important\n" ++
  "  --sort, --no-sort     Order output by cascade precedence, winner first\n" ++
  "  --format \x7btext,json\x7d  Output format (default: text)\n" ++
  "  --config FILE         Config file (default: auto-discover csscascade.toml)\n" ++
  "  --debug               Dump token trees to stderr\n"

def UsageFault.report (f : UsageFault) : String :=
  usageText ++ programName ++ ": error: " ++ f.message ++ "\n"

end SelectorRank.CommandLine
