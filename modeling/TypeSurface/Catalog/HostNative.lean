/-!
# The set for host-native code
-/

namespace TypeSurface
namespace Catalog

/-- The set that realises the mode `host-native`. -/
def hostNativeText : String :=
  "/// <set id=\"host-native\" version=\"1.0.0\" mode=\"host-native\" />\n" ++
  "/// <reference set=\"base\" />

/////////////////////////////
/// Host-native semantics
/////////////////////////////

// Collections map onto the target runtime's native containers. Operations
// that would allocate a new container per call (map, slice, filter) are
// deliberately absent, as are DOM, filesystem, process and network APIs.

interface Array<T> \x7b
    push(...items: T[]): int;
    pop(): T | undefined;
    shift(): T | undefined;
    unshift(...items: T[]): int;
    indexOf(searchElement: T, fromIndex?: int): int;
    lastIndexOf(searchElement: T, fromIndex?: int): int;
    includes(searchElement: T, fromIndex?: int): boolean;
    at(index: int): T | undefined;
    reverse(): T[];
    sort(compareFn?: (a: T, b: T) => number): this;
    fill(value: T, start?: int, end?: int): this;
    forEach(callbackfn: (value: T, index: int) => void): void;
    join(separator?: string): string;
\x7d

interface ArrayConstructor \x7b
    new <T>(arrayLength: int): T[];
    isArray(arg: any): arg is any[];
    readonly prototype: any[];
\x7d

declare var Array: ArrayConstructor;

interface String \x7b
    charAt(pos: int): string;
    charCodeAt(index: int): number;
    indexOf(searchString: string, position?: int): int;
    lastIndexOf(searchString: string, position?: int): int;
    includes(searchString: string, position?: int): boolean;
    startsWith(searchString: string, position?: int): boolean;
    endsWith(searchString: string, endPosition?: int): boolean;
    substring(start: int, end?: int): string;
    toLowerCase(): string;
    toUpperCase(): string;
    trim(): string;
\x7d

interface Math \x7b
    readonly PI: number;
    abs(x: number): number;
    ceil(x: number): int;
    floor(x: number): int;
    round(x: number): int;
    max(...values: number[]): number;
    min(...values: number[]): number;
    sqrt(x: number): number;
    pow(x: number, y: number): number;
\x7d

declare var Math: Math;

interface Map<K, V> \x7b
    clear(): void;
    delete(key: K): boolean;
    get(key: K): V | undefined;
    has(key: K): boolean;
    set(key: K, value: V): this;
    readonly size: int;
\x7d

interface MapConstructor \x7b
    new <K, V>(): Map<K, V>;
    readonly prototype: Map<any, any>;
\x7d

declare var Map: MapConstructor;

interface Console \x7b
    log(...data: any[]): void;
    error(...data: any[]): void;
\x7d

declare var console: Console;

interface Error \x7b
    name: string;
    message: string;
\x7d

interface ErrorConstructor \x7b
    new (message?: string): Error;
    readonly prototype: Error;
\x7d

declare var Error: ErrorConstructor;

declare function parseInt(string: string, radix?: number): number;
declare function parseFloat(string: string): number;
"

end Catalog
end TypeSurface
